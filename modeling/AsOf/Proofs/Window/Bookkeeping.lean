import AsOf.Proofs.Window.PointInTime

namespace AsOf

namespace Window

variable {α : Type} [Cell α] {rows cols : Nat}
variable {g : Grid α rows cols} {s : Schedule α} {length c d k : Nat} {p : Option Nat}
variable {w : Window α rows cols}

/-- The books of a window over a schedule are right: the buckets up to the cursor have been applied,
the others are pending as they were given. -/
structure Accounts (s : Schedule α) (w : Window α rows cols) : Prop where
  disjoint : ∀ k ∈ w.applied, k ∉ w.pending.rows
  covered : ∀ k, k ∈ s.rows ↔ k ∈ w.applied ∨ k ∈ w.pending.rows
  unplaced : w.cursor = none → w.applied = [] ∧ w.pending = s
  placed : ∀ c, w.cursor = some c →
    w.applied = s.rows.filter (· ≤ c) ∧ w.pending.buckets = s.buckets.filter (c < ·.1)
  cursor_mem : ∀ c, w.cursor = some c → w.length - 1 ≤ c ∧ c < rows

theorem standing_applied_some :
    k ∈ (standing g s length (some c)).applied ↔ k ∈ s.rows ∧ k ≤ c :=
  Schedule.mem_rows_through

theorem standing_accounts (hp : ∀ c ∈ p, Admits rows length c) :
    (standing g s length p).Accounts s := by
  cases p with
  | none =>
    constructor
    · intro k hk
      cases hk
    · intro k
      simp [standing]
    · intro _
      exact ⟨rfl, rfl⟩
    · intro c hc
      cases hc
    · intro c hc
      cases hc
  | some c =>
    have hpending (k : Nat) : k ∈ (standing g s length (some c)).pending.rows ↔
        k ∈ s.rows ∧ c < k := Schedule.mem_rows_after
    constructor
    · intro k hk hk'
      exact Nat.not_lt.mpr (standing_applied_some.mp hk).2 ((hpending k).mp hk').2
    · intro k
      rw [standing_applied_some, hpending, ← and_or_left]
      exact (and_iff_left (Nat.lt_or_ge c k).symm).symm
    · intro hc
      cases hc
    · intro d hd
      cases hd
      exact ⟨s.rows_through c, rfl⟩
    · intro d hd
      cases hd
      obtain ⟨hle, hlt⟩ := hp c rfl
      rw [standing_length]
      exact ⟨Nat.sub_le_of_le_add hle, hlt⟩

theorem nextCursor_ge (q : Request) : ∀ c ∈ p, ∃ d ∈ nextCursor rows length p q, c ≤ d := by
  intro c hc
  unfold nextCursor
  split
  · rename_i row _
    cases hl : landing rows length p row with
    | error e => exact ⟨c, hc, Nat.le_refl c⟩
    | ok d =>
      obtain ⟨rfl, -, hle⟩ := landing_eq_ok hl
      exact ⟨d, rfl, hle c hc⟩
  · exact ⟨c, hc, Nat.le_refl c⟩

theorem applied_nextCursor (q : Request) (hk : k ∈ (standing g s length p).applied) :
    k ∈ (standing g s length (nextCursor rows length p q)).applied := by
  cases p with
  | none => cases hk
  | some c =>
    obtain ⟨d, hd, hle⟩ : ∃ d ∈ nextCursor rows length (some c) q, c ≤ d := nextCursor_ge q c rfl
    obtain ⟨hs, hkc⟩ := standing_applied_some.mp hk
    rw [Option.mem_def.mp hd]
    exact standing_applied_some.mpr ⟨hs, Nat.le_trans hkc hle⟩

theorem moves_eq_nil_iff (h : make g s length = .ok w) (qs : List Request) :
    w.moves qs = [] ↔ cursorAfter rows length none qs = none := by
  obtain ⟨rfl, -, -, -⟩ := make_eq_ok h
  have hlast : ((standing g s length none).moves qs).getLast?.or none =
      (cursorAfter rows length none qs).map (shown g s length) := getLast?_moves admits_none qs
  rw [Option.or_none] at hlast
  rw [← List.getLast?_eq_none_iff, hlast, Option.map_eq_none_iff]

/-- After any run the books of a window are right, nothing has been applied unless it has been
moved, and no request moves the cursor back or takes back what has been applied. -/
theorem bookkeeping (h : make g s length = .ok w) (qs : List Request) :
    (w.after qs).Accounts s ∧ (w.after qs).length = length ∧
    (w.moves qs = [] → (w.after qs).applied = []) ∧
    ∀ q, (∀ c, (w.after qs).cursor = some c →
        ∃ d, ((w.after qs).serve q).window.cursor = some d ∧ c ≤ d) ∧
      ∀ k ∈ (w.after qs).applied, k ∈ ((w.after qs).serve q).window.applied := by
  obtain ⟨hafter, hadmits⟩ := after_make h qs
  rw [hafter]
  refine ⟨standing_accounts hadmits, standing_length, ?_, ?_⟩
  · intro hmoves
    rw [(moves_eq_nil_iff h qs).mp hmoves]
    rfl
  · intro q
    rw [serve_standing hadmits, standing_cursor, standing_cursor]
    exact ⟨fun c hc => nextCursor_ge q c hc, fun k hk => applied_nextCursor q hk⟩

theorem bookkeeping_empty_buckets :
    let g : Grid Int 3 1 := #v[#v[1], #v[2], #v[3]]
    let s : Schedule Int :=
      ⟨[(0, []), (1, [⟨⟨0, 1, 0, 0⟩, .overwrite 10⟩]), (2, [⟨⟨2, 2, 0, 0⟩, .overwrite 30⟩]),
        (9, [])], by decide⟩
    let w : Window Int 3 1 := standing g s 2 none
    let qs : List Request := [.advanceTo 0, .advance, .advanceTo 0]
    make g s 2 = .ok w ∧ (w.after qs).applied = [0, 1] ∧ (w.after qs).pending.rows = [2, 9] := by
  intro g s w qs
  have hw : make g s 2 = .ok w := rfl
  obtain ⟨happlied, hpending⟩ := (bookkeeping hw qs).1.placed 1 rfl
  refine ⟨hw, happlied, ?_⟩
  rw [Schedule.rows, hpending]
  rfl

end Window

end AsOf
