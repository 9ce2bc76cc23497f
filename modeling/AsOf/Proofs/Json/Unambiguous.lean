import AsOf.Proofs.Json.Numbers

namespace AsOf

namespace Written

open Json (writeChar writeString)

variable {c d : Char} {cs r : List Char} {n : Nat}

theorem toNat_escape : ∀ n < 32,
    ['0', '0', Text.hexDigit (n / 16), Text.hexDigit (n % 16)].all
      (fun x => (digitValue? 16 x).isSome) = true ∧
    numeral 16 ['0', '0', Text.hexDigit (n / 16), Text.hexDigit (n % 16)] = n := by
  decide

theorem units?_control (hn : n < 32) (fuel : Nat) (r : List Char) :
    units? (fuel + 1) ('\\' :: 'u' :: '0' :: '0' :: Text.hexDigit (n / 16) ::
      Text.hexDigit (n % 16) :: r) = (units? fuel r).map fun p => (.inr n :: p.1, p.2) := by
  obtain ⟨hall, hvalue⟩ := toNat_escape n hn
  rw [units?, hexUnit?, if_pos hall, hvalue, Option.map_eq_bind]
  rfl

theorem units?_escaped (hc : escaped? c = some d) (hu : c ≠ 'u') (fuel : Nat) (r : List Char) :
    units? (fuel + 1) ('\\' :: c :: r) = (units? fuel r).map fun p => (.inl d :: p.1, p.2) := by
  rw [units?, hc, Option.map_eq_bind]
  · rfl
  · exact hu

theorem units?_plain (hquote : c ≠ '"') (hescape : c ≠ '\\') (hc : ¬ c.toNat < 32) (fuel : Nat)
    (r : List Char) :
    units? (fuel + 1) (c :: r) = (units? fuel r).map fun p => (.inl c :: p.1, p.2) := by
  rw [units?, if_neg (not_or.mpr ⟨hc, hescape⟩), Option.map_eq_bind]
  · rfl
  all_goals simp [hquote, hescape]

theorem exists_unit (c : Char) : ∃ u,
    (∀ us, joinUnits? (u :: us) = (joinUnits? us).map (c :: ·)) ∧
    ∀ fuel r, units? (fuel + 1) (writeChar c ++ r) =
      (units? fuel r).map fun p => (u :: p.1, p.2) := by
  have hletter {d : Char} (hd : escaped? d = some c) (hu : d ≠ 'u') : ∃ u,
      (∀ us, joinUnits? (u :: us) = (joinUnits? us).map (c :: ·)) ∧
      ∀ fuel r, units? (fuel + 1) (['\\', d] ++ r) =
        (units? fuel r).map fun p => (u :: p.1, p.2) :=
    ⟨.inl c, fun _ => rfl, units?_escaped hd hu⟩
  unfold writeChar
  split_ifs with hquote hescape hn hr ht hb hf hcontrol
  · exact hletter (by rw [hquote]; rfl) (by decide)
  · exact hletter (by rw [hescape]; rfl) (by decide)
  · exact hletter (by rw [hn]; rfl) (by decide)
  · exact hletter (by rw [hr]; rfl) (by decide)
  · exact hletter (by rw [ht]; rfl) (by decide)
  · obtain rfl : c = '\x08' := Char.toNat_inj.mp hb
    exact hletter rfl (by decide)
  · obtain rfl : c = '\x0c' := Char.toNat_inj.mp hf
    exact hletter rfl (by decide)
  · have hhigh : ¬ (0xd800 ≤ c.toNat ∧ c.toNat < 0xdc00) := by omega
    have hlow : ¬ (0xdc00 ≤ c.toNat ∧ c.toNat < 0xe000) := by omega
    refine ⟨.inr c.toNat, fun us => ?_, units?_control hcontrol⟩
    rw [joinUnits?.eq_def]
    simp only [if_neg hhigh, if_neg hlow, Char.ofNat_toNat]
  · exact ⟨.inl c, fun _ => rfl, units?_plain hquote hescape hcontrol⟩

theorem exists_units (cs r : List Char) (fuel : Nat) : ∃ us,
    units? (fuel + cs.length + 1) (cs.flatMap writeChar ++ '"' :: r) = some (us, r) ∧
    joinUnits? us = some cs := by
  induction cs with
  | nil => exact ⟨[], rfl, rfl⟩
  | cons c cs ih =>
    obtain ⟨us, hus, hjoin⟩ := ih
    obtain ⟨u, hu, hread⟩ := exists_unit c
    refine ⟨u :: us, ?_, ?_⟩
    · rw [List.flatMap_cons, List.append_assoc, List.length_cons, hread, ← Nat.add_assoc, hus]
      rfl
    · rw [hu, hjoin]
      rfl

theorem length_le_flatMap_writeChar (cs : List Char) :
    cs.length ≤ (cs.flatMap writeChar).length := by
  induction cs with
  | nil => exact Nat.zero_le _
  | cons c cs ih =>
    have hc : 0 < (writeChar c).length := by
      unfold writeChar
      split_ifs <;> exact Nat.zero_lt_succ _
    rw [List.flatMap_cons, List.length_append, List.length_cons]
    omega

theorem readString?_flatMap_writeChar (s : String) (r : List Char) :
    readString? (s.toList.flatMap writeChar ++ '"' :: r) = some (some s, r) := by
  have hlength := length_le_flatMap_writeChar s.toList
  obtain ⟨fuel, hfuel⟩ : ∃ fuel,
      (s.toList.flatMap writeChar ++ '"' :: r).length = fuel + s.toList.length :=
    ⟨_, (Nat.sub_add_cancel (by rw [List.length_append]; omega)).symm⟩
  obtain ⟨us, hus, hjoin⟩ := exists_units s.toList r fuel
  rw [readString?, hfuel, hus]
  simp [hjoin]

end Written

namespace Json

variable {v w : Json} {c : Char} {cs r s : List Char}

theorem writeString_append_inj {a b : String} (h : writeString a ++ r = writeString b ++ s) :
    a = b ∧ r = s := by
  simp only [writeString, List.cons_append, List.append_assoc, List.nil_append] at h
  have ha := Written.readString?_flatMap_writeChar a r
  rw [(List.cons.inj h).2, Written.readString?_flatMap_writeChar] at ha
  simp only [Option.some.injEq, Prod.mk.injEq] at ha
  exact ⟨ha.1.symm, ha.2.symm⟩

/-- The kinds of values that the first character of their text tells apart. -/
inductive Kind where
  | null
  | bool
  | number
  | str
  | arr
  | obj

def kind : Json → Kind
  | .null => .null
  | .bool _ => .bool
  | .int _ | .float _ => .number
  | .str _ => .str
  | .arr _ => .arr
  | .obj _ => .obj

def Kind.of? (c : Char) : Option Kind :=
  if c = 'n' then some .null
  else if c = 't' ∨ c = 'f' then some .bool
  else if c = '-' ∨ isDigit c then some .number
  else if c = '"' then some .str
  else if c = '[' then some .arr
  else if c = '\x7b' then some .obj
  else none

mutual

/-- Every float in the value is finite, so it is not written as null is. -/
def Finite : Json → Prop
  | .float x => (Binary.ofFloat x).isFinite = true
  | .arr items => FiniteItems items
  | .obj members => FiniteMembers members
  | _ => True

def FiniteItems : List Json → Prop
  | [] => True
  | v :: rest => v.Finite ∧ FiniteItems rest

def FiniteMembers : List (String × Json) → Prop
  | [] => True
  | (_, v) :: rest => v.Finite ∧ FiniteMembers rest

end

theorem exists_write_float {x : Float} (h : (Json.float x).Finite) :
    ∃ cs, writeFloat? decimalStyle x = some cs ∧ (Json.float x).write = cs := by
  rw [Finite] at h
  rw [write]
  cases hx : Binary.ofFloat x with
  | finite negative m e =>
    rw [writeFloat?, hx]
    exact ⟨_, rfl, rfl⟩
  | _ =>
    rw [hx] at h
    cases h

theorem Kind.of?_number (h : c = '-' ∨ isDigit c = true) : Kind.of? c = some .number := by
  have hne {d : Char} (hminus : d ≠ '-') (hdigit : isDigit d = false) : c ≠ d := by
    rintro rfl
    exact h.elim hminus fun h => absurd h (by rw [hdigit]; decide)
  have htruth : ¬ (c = 't' ∨ c = 'f') :=
    not_or.mpr ⟨hne (by decide) (by decide), hne (by decide) (by decide)⟩
  rw [Kind.of?, if_neg (hne (by decide) (by decide)), if_neg htruth, if_pos h]

theorem exists_first_of_readNumber? {negative : Bool} {p : Written × List Char}
    (h : Written.readNumber? negative cs = some p) :
    ∃ c rest, (if negative then '-' :: cs else cs) = c :: rest ∧
      Kind.of? c = some .number := by
  cases negative with
  | true => exact ⟨'-', cs, rfl, rfl⟩
  | false =>
    obtain ⟨c, rest, rfl, hc⟩ := Written.exists_digit_of_readNumber? h
    exact ⟨c, rest, rfl, Kind.of?_number (.inr hc)⟩

/-- The first character of a text says of which kind the value is. -/
theorem exists_first (h : v.Finite) :
    ∃ c rest, v.write = c :: rest ∧ Kind.of? c = some v.kind := by
  have hnil : IsEnding [] := fun _ hc => absurd hc (by simp)
  cases v with
  | null => exact ⟨_, _, rfl, rfl⟩
  | bool b => cases b <;> exact ⟨_, _, rfl, rfl⟩
  | int n =>
    have hread := Written.readNumber?_digits (decide (n < 0)) n.natAbs hnil
    rw [List.append_nil] at hread
    simpa [write, writeInt, kind] using exists_first_of_readNumber? hread
  | float x =>
    obtain ⟨cs, hcs, hwrite⟩ := exists_write_float h
    obtain ⟨negative, m, e, ds, -, rfl, hread⟩ := Written.exists_readsAs_of_writeFloat? hcs
    obtain ⟨l, hl, -⟩ := hread [] hnil
    rw [List.append_nil] at hl
    rw [hwrite]
    exact exists_first_of_readNumber? hl
  | str s => exact ⟨_, _, rfl, rfl⟩
  | arr items => cases items <;> exact ⟨_, _, rfl, rfl⟩
  | obj members => cases members <;> exact ⟨_, _, rfl, rfl⟩

theorem kind_eq_of_write_append (hv : v.Finite) (hw : w.Finite)
    (h : v.write ++ r = w.write ++ s) : v.kind = w.kind := by
  obtain ⟨c, cs, hcs, hc⟩ := exists_first hv
  obtain ⟨d, ds, hds, hd⟩ := exists_first hw
  rw [hcs, hds] at h
  obtain ⟨rfl, -⟩ := List.cons.inj h
  exact Option.some.inj (hc.symm.trans hd)

theorem write_append_ne (hv : v.Finite) (hc : Kind.of? c = none) : v.write ++ r ≠ c :: s := by
  intro h
  obtain ⟨d, ds, hds, hd⟩ := exists_first hv
  rw [hds] at h
  obtain ⟨rfl, -⟩ := List.cons.inj h
  cases hc.symm.trans hd

theorem isEnding_writeItems (vs : List Json) (r : List Char) : IsEnding (writeItems vs ++ r) := by
  cases vs with
  | nil => exact fun c hc => by cases hc; exact .inr (.inl rfl)
  | cons v vs => exact fun c hc => by cases hc; exact .inl rfl

theorem isEnding_writeMembers (ms : List (String × Json)) (r : List Char) :
    IsEnding (writeMembers ms ++ r) := by
  cases ms with
  | nil => exact fun c hc => by cases hc; exact .inr (.inr rfl)
  | cons m ms => exact fun c hc => by cases hc; exact .inl rfl

theorem writeItems_append_eq {vs ws : List Json} (hv : FiniteItems vs) (hw : FiniteItems ws)
    (h : (arr vs).write ++ r = (arr ws).write ++ s) :
    writeItems vs ++ r = writeItems ws ++ s := by
  cases vs with
  | nil =>
    cases ws with
    | nil => exact (List.cons.inj h).2
    | cons w ws =>
      rw [FiniteItems] at hw
      simp only [write, List.cons_append, List.append_assoc, List.cons.injEq, true_and] at h
      exact absurd h.symm (write_append_ne hw.1 rfl)
  | cons v vs =>
    cases ws with
    | nil =>
      rw [FiniteItems] at hv
      simp only [write, List.cons_append, List.append_assoc, List.cons.injEq, true_and] at h
      exact absurd h (write_append_ne hv.1 rfl)
    | cons w ws => exact congrArg (',' :: ·) (List.cons.inj h).2

theorem writeMembers_append_eq {ms ns : List (String × Json)}
    (h : (obj ms).write ++ r = (obj ns).write ++ s) :
    writeMembers ms ++ r = writeMembers ns ++ s := by
  cases ms with
  | nil =>
    cases ns with
    | nil => exact (List.cons.inj h).2
    | cons n ns => cases (List.cons.inj (List.cons.inj h).2).1
  | cons m ms =>
    cases ns with
    | nil => cases (List.cons.inj (List.cons.inj h).2).1
    | cons n ns => exact congrArg (',' :: ·) (List.cons.inj h).2

theorem leaf_append_inj (hv : v.Finite) (hw : w.Finite) (hr : IsEnding r) (hs : IsEnding s)
    (h : v.write ++ r = w.write ++ s) (harr : v.kind ≠ .arr) (hobj : v.kind ≠ .obj) :
    v = w ∧ r = s := by
  have hkind := kind_eq_of_write_append hv hw h
  cases v with
  | null =>
    cases w with
    | null => exact ⟨rfl, List.append_cancel_left h⟩
    | _ => cases hkind
  | bool a =>
    cases w with
    | bool b =>
      cases a <;> cases b
      · exact ⟨rfl, List.append_cancel_left h⟩
      · cases (List.cons.inj h).1
      · cases (List.cons.inj h).1
      · exact ⟨rfl, List.append_cancel_left h⟩
    | _ => cases hkind
  | int n =>
    cases w with
    | int k =>
      obtain ⟨rfl, rfl⟩ := writeInt_append_inj hr hs h
      exact ⟨rfl, rfl⟩
    | float y =>
      obtain ⟨b, hb, hwrite⟩ := exists_write_float hw
      rw [hwrite] at h
      exact absurd h (writeInt_append_ne hb hr hs)
    | _ => cases hkind
  | float x =>
    obtain ⟨a, ha, hwrite⟩ := exists_write_float hv
    rw [hwrite] at h
    cases w with
    | int k => exact absurd h.symm (writeInt_append_ne ha hs hr)
    | float y =>
      obtain ⟨b, hb, hwrite⟩ := exists_write_float hw
      rw [hwrite] at h
      obtain ⟨rfl, rfl⟩ := writeFloat?_append_inj ha hb hr hs h
      exact ⟨rfl, rfl⟩
    | _ => cases hkind
  | str a =>
    cases w with
    | str b =>
      obtain ⟨rfl, rfl⟩ := writeString_append_inj h
      exact ⟨rfl, rfl⟩
    | _ => cases hkind
  | arr vs => exact absurd rfl harr
  | obj ms => exact absurd rfl hobj

mutual

/-- Values are told by their text, wherever it ends. -/
theorem write_append_inj : ∀ (v w : Json) {r s : List Char}, v.Finite → w.Finite → IsEnding r →
    IsEnding s → v.write ++ r = w.write ++ s → v = w ∧ r = s
  | .arr vs, w, _, _, hv, hw, _, _, h => by
    cases w with
    | arr ws =>
      rw [Finite] at hv hw
      obtain ⟨rfl, rfl⟩ := writeItems_append_inj vs ws hv hw (writeItems_append_eq hv hw h)
      exact ⟨rfl, rfl⟩
    | _ => cases kind_eq_of_write_append hv hw h
  | .obj ms, w, _, _, hv, hw, _, _, h => by
    cases w with
    | obj ns =>
      rw [Finite] at hv hw
      obtain ⟨rfl, rfl⟩ := writeMembers_append_inj ms ns hv hw (writeMembers_append_eq h)
      exact ⟨rfl, rfl⟩
    | _ => cases kind_eq_of_write_append hv hw h
  | .null, _, _, _, hv, hw, hr, hs, h | .bool _, _, _, _, hv, hw, hr, hs, h
  | .int _, _, _, _, hv, hw, hr, hs, h | .float _, _, _, _, hv, hw, hr, hs, h
  | .str _, _, _, _, hv, hw, hr, hs, h => leaf_append_inj hv hw hr hs h nofun nofun

theorem writeItems_append_inj : ∀ (vs ws : List Json) {r s : List Char}, FiniteItems vs →
    FiniteItems ws → writeItems vs ++ r = writeItems ws ++ s → vs = ws ∧ r = s
  | [], [], _, _, _, _, h => ⟨rfl, (List.cons.inj h).2⟩
  | [], _ :: _, _, _, _, _, h => by cases (List.cons.inj h).1
  | _ :: _, [], _, _, _, _, h => by cases (List.cons.inj h).1
  | v :: vs, w :: ws, r, s, hv, hw, h => by
    rw [FiniteItems] at hv hw
    simp only [writeItems, List.cons_append, List.append_assoc, List.cons.injEq, true_and] at h
    obtain ⟨rfl, hrest⟩ := write_append_inj v w hv.1 hw.1 (isEnding_writeItems vs r)
      (isEnding_writeItems ws s) h
    obtain ⟨rfl, rfl⟩ := writeItems_append_inj vs ws hv.2 hw.2 hrest
    exact ⟨rfl, rfl⟩

theorem writeMembers_append_inj : ∀ (ms ns : List (String × Json)) {r s : List Char},
    FiniteMembers ms → FiniteMembers ns → writeMembers ms ++ r = writeMembers ns ++ s →
    ms = ns ∧ r = s
  | [], [], _, _, _, _, h => ⟨rfl, (List.cons.inj h).2⟩
  | [], _ :: _, _, _, _, _, h => by cases (List.cons.inj h).1
  | _ :: _, [], _, _, _, _, h => by cases (List.cons.inj h).1
  | (k, v) :: ms, (j, w) :: ns, r, s, hv, hw, h => by
    rw [FiniteMembers] at hv hw
    simp only [writeMembers, List.cons_append, List.append_assoc, List.cons.injEq, true_and] at h
    obtain ⟨rfl, hvalue⟩ := writeString_append_inj h
    obtain ⟨rfl, hrest⟩ := write_append_inj v w hv.1 hw.1 (isEnding_writeMembers ms r)
      (isEnding_writeMembers ns s) (List.cons.inj hvalue).2
    obtain ⟨rfl, rfl⟩ := writeMembers_append_inj ms ns hv.2 hw.2 hrest
    exact ⟨rfl, rfl⟩

end

theorem text_eq_iff (hv : v.Finite) (hw : w.Finite) : v.text = w.text ↔ v = w := by
  refine ⟨fun h => ?_, congrArg text⟩
  have hnil : IsEnding [] := fun _ hc => absurd hc (by simp)
  have hwrite : v.write ++ [] = w.write ++ [] := congrArg (· ++ []) (String.ofList_injective h)
  exact (write_append_inj v w hv hw hnil hnil hwrite).1

end Json

end AsOf
