import AsOf.Proofs.Window.Standing

namespace AsOf

/-- A correction lies in a buffer of the given shape and is filed under one of its rows. -/
def Anchored {α : Type} (rows cols : Nat) (e : Nat × Correction α) : Prop :=
  e.1 < rows ∧ e.2.rect.Fits rows cols

namespace Schedule

variable {α : Type} {s : Schedule α} {rows cols k : Nat} {e : Nat × Correction α}

theorem mem_entries_iff : e ∈ s.entries ↔ e.2 ∈ s.bucket e.1 := by
  refine ⟨mem_entries, fun he => ?_⟩
  unfold bucket at he
  cases hb : s.buckets.lookup e.1 with
  | none =>
    rw [hb] at he
    cases he
  | some b =>
    rw [hb] at he
    obtain ⟨l, r, hl, -⟩ := List.lookup_eq_some_iff.mp hb
    have hmem : (e.1, b) ∈ s.buckets := by
      rw [hl]
      exact List.mem_append_right _ List.mem_cons_self
    exact List.mem_flatMap.mpr ⟨(e.1, b), hmem, List.mem_map_of_mem he⟩

theorem map_snd_entries (s : Schedule α) : s.entries.map Prod.snd = s.corrections := by
  simp only [entries, corrections, List.map_flatMap, List.map_map]
  congr 1
  funext b
  exact List.map_id b.2

theorem misfit?_eq_none_iff :
    s.misfit? rows cols = none ↔ ∀ e ∈ s.entries, Anchored rows cols e := by
  simp [misfit?, List.find?_eq_none, Anchored]

theorem misfit?_eq_some_iff : s.misfit? rows cols = some e ↔
    ¬Anchored rows cols e ∧ ∃ before after, s.entries = before ++ e :: after ∧
      ∀ f ∈ before, Anchored rows cols f := by
  simp only [misfit?, List.find?_eq_some_iff_append, Bool.not_eq_true', Bool.not_not,
    Bool.and_eq_true, decide_eq_true_eq, Bool.and_eq_false_iff, decide_eq_false_iff_not, Anchored,
    Decidable.not_and_iff_or_not]

theorem fits_of_misfit?_eq_none (h : s.misfit? rows cols = none) :
    ∀ c ∈ s.corrections, c.rect.Fits rows cols := by
  rw [← map_snd_entries]
  intro c hc
  obtain ⟨e, he, rfl⟩ := List.mem_map.mp hc
  exact (misfit?_eq_none_iff.mp h e he).2

theorem bucket_eq_nil_of_misfit?_eq_none (h : s.misfit? rows cols = none) (hk : rows ≤ k) :
    s.bucket k = [] := by
  rw [List.eq_nil_iff_forall_not_mem]
  intro c hc
  have hlt : k < rows := (misfit?_eq_none_iff.mp h (k, c) (mem_entries_iff.mpr hc)).1
  exact Nat.not_lt.mpr hk hlt

theorem corrections_through_last (h : s.misfit? rows cols = none) :
    (s.through (rows - 1)).corrections = s.corrections := by
  have hrest : (s.after (rows - 1)).corrections = [] := by
    rw [corrections_eq, List.flatMap_eq_nil_iff]
    intro k hk
    have hlast := (mem_rows_after.mp hk).2
    have hk : s.bucket k = [] := bucket_eq_nil_of_misfit?_eq_none h (by omega)
    rw [after, bucket_restrict, hk, ite_self]
  have hsplit : (s.through (rows - 1)).corrections ++ (s.after (rows - 1)).corrections =
      s.corrections := by
    simp only [corrections, ← List.flatMap_append, through_append_after]
  rwa [hrest, List.append_nil] at hsplit

end Schedule

namespace Window

variable {α : Type} {rows cols : Nat}
variable {g : Grid α rows cols} {s : Schedule α} {length : Nat} {f : WindowFault}

theorem make_of_misfit? (hpos : 1 ≤ length) (hle : length ≤ rows) {e : Nat × Correction α}
    (he : s.misfit? rows cols = some e) :
    make g s length = .error (.misfit e.1 e.2.rect.lastRow e.2.rect.lastCol rows cols) := by
  unfold make checkLength checkSchedule
  rw [if_neg (by omega), if_neg (by omega), he]
  rfl

variable [Cell α]

theorem make_isOk_iff : (∃ w, make g s length = .ok w) ↔
    (1 ≤ length ∧ length ≤ rows) ∧ ∀ e ∈ s.entries, Anchored rows cols e := by
  rw [← Schedule.misfit?_eq_none_iff]
  constructor
  · rintro ⟨w, hw⟩
    obtain ⟨-, hpos, hle, hfits⟩ := make_eq_ok hw
    exact ⟨⟨hpos, hle⟩, hfits⟩
  · rintro ⟨⟨hpos, hle⟩, hfits⟩
    exact ⟨_, make_ok hpos hle hfits⟩

theorem make_eq_error_iff : make g s length = .error f ↔
    (length = 0 ∧ f = .noLength) ∨ (rows < length ∧ f = .tooLong length rows) ∨
      (1 ≤ length ∧ length ≤ rows) ∧ ∃ before k c after,
        s.entries = before ++ (k, c) :: after ∧ (∀ e ∈ before, Anchored rows cols e) ∧
          ¬Anchored rows cols (k, c) ∧
            f = .misfit k c.rect.lastRow c.rect.lastCol rows cols := by
  rcases Nat.eq_zero_or_pos length with rfl | hpos
  · have hmake : make g s 0 = .error .noLength := rfl
    rw [hmake, or_iff_left]
    · simp [eq_comm]
    · rintro (⟨hlt, -⟩ | ⟨⟨hpos, -⟩, -⟩) <;> omega
  rcases Nat.lt_or_ge rows length with hlt | hle
  · have hmake : make g s length = .error (.tooLong length rows) := by
      unfold make checkLength
      rw [if_neg (Nat.ne_of_gt hpos), if_pos hlt]
      rfl
    rw [hmake, or_iff_right fun h => Nat.ne_of_gt hpos h.1,
      or_iff_left fun h => Nat.not_le.mpr hlt h.1.2]
    simp [hlt, eq_comm]
  rw [or_iff_right fun h => Nat.ne_of_gt hpos h.1, or_iff_right fun h => Nat.not_lt.mpr hle h.1]
  cases hm : s.misfit? rows cols with
  | none =>
    rw [make_ok hpos hle hm]
    refine iff_of_false (fun h => by cases h) ?_
    rintro ⟨-, before, k, c, after, hs, -, hno, -⟩
    refine hno (Schedule.misfit?_eq_none_iff.mp hm (k, c) ?_)
    rw [hs]
    exact List.mem_append_right _ List.mem_cons_self
  | some e =>
    rw [make_of_misfit? hpos hle hm]
    constructor
    · intro he
      cases he
      obtain ⟨hno, before, after, hs, hbefore⟩ := Schedule.misfit?_eq_some_iff.mp hm
      exact ⟨⟨hpos, hle⟩, before, e.1, e.2, after, hs, hbefore, hno, rfl⟩
    · rintro ⟨-, before, k, c, after, hs, hbefore, hno, rfl⟩
      have hfirst := Schedule.misfit?_eq_some_iff.mpr ⟨hno, before, after, hs, hbefore⟩
      rw [hm] at hfirst
      cases hfirst
      rfl

end Window

end AsOf
