import AsOf.Proofs.Window.Construction
import AsOf.Proofs.Window.PointInTime

namespace AsOf

namespace Window

variable {α : Type} [Cell α] {rows cols : Nat}
variable {g : Grid α rows cols} {s : Schedule α} {length : Nat} {w : Window α rows cols}

/-- The row at which a window ends after it has been moved forward `n` times by one row. -/
def traversed (rows length : Nat) : Nat → Option Nat
  | 0 => none
  | n + 1 => some (min (length - 1 + n) (rows - 1))

theorem landing_traversed (hpos : 0 < length) (hle : length ≤ rows) (n : Nat) :
    landing rows length (traversed rows length n) (ahead length (traversed rows length n)) =
      if n < rows - length + 1 then .ok (length - 1 + n)
      else .error (.outOfBounds rows rows length) := by
  cases n with
  | zero =>
    have hadmits : Admits rows length (length - 1) := ⟨by omega, by omega⟩
    rw [if_pos (Nat.succ_pos _)]
    exact if_pos hadmits
  | succ n =>
    have hahead : ahead length (traversed rows length (n + 1)) =
        min (length - 1 + n) (rows - 1) + 1 := rfl
    rw [hahead, traversed, landing, if_neg (Nat.not_lt.mpr (Nat.le_succ _))]
    by_cases hn : n + 1 < rows - length + 1
    · have hrow : min (length - 1 + n) (rows - 1) + 1 = length - 1 + (n + 1) := by omega
      have hadmits : Admits rows length (length - 1 + (n + 1)) := ⟨by omega, by omega⟩
      rw [if_pos hn, hrow, if_pos hadmits]
    · -- From the last row on, the row ahead is the one after the last, and no window ends there.
      have hrow : min (length - 1 + n) (rows - 1) + 1 = rows := by omega
      have hno : ¬Admits rows length rows := fun h => Nat.lt_irrefl rows h.2
      rw [if_neg hn, hrow, if_neg hno]

theorem nextCursor_traversed (hpos : 0 < length) (hle : length ≤ rows) (n : Nat) :
    nextCursor rows length (traversed rows length n) .advance = traversed rows length (n + 1) := by
  simp only [nextCursor, goal, landing_traversed hpos hle]
  by_cases hn : n < rows - length + 1
  · rw [if_pos hn]
    exact congrArg some (by omega)
  · rw [if_neg hn]
    cases n with
    | zero => exact absurd (Nat.succ_pos _) hn
    | succ n => exact congrArg some (by omega)

theorem cursorAfter_append (rows length : Nat) (p : Option Nat) (qs qs' : List Request) :
    cursorAfter rows length p (qs ++ qs') =
      cursorAfter rows length (cursorAfter rows length p qs) qs' :=
  List.foldl_append

/-- The run law, for a run that only moves forward. -/
theorem cursorAfter_advances (hpos : 0 < length) (hle : length ≤ rows) (n : Nat) :
    cursorAfter rows length none (List.replicate n .advance) = traversed rows length n := by
  induction n with
  | zero => rfl
  | succ n ih =>
    rw [List.replicate_succ', cursorAfter_append, ih]
    exact nextCursor_traversed hpos hle n

theorem after_advances (h : make g s length = .ok w) (n : Nat) :
    w.after (List.replicate n .advance) = standing g s length (traversed rows length n) := by
  obtain ⟨-, hpos, hle, -⟩ := make_eq_ok h
  rw [(after_make h _).1, cursorAfter_advances hpos hle]

theorem answer_advances (h : make g s length = .ok w) (n : Nat) :
    (w.after (List.replicate n .advance)).advance.answer =
      if n < rows - length + 1 then .ok (shown g s length (length - 1 + n))
      else .error (.outOfBounds rows rows length) := by
  obtain ⟨-, hpos, hle, -⟩ := make_eq_ok h
  have hadmits := (after_make h (List.replicate n .advance)).2
  rw [cursorAfter_advances hpos hle] at hadmits
  rw [after_advances h, advance, standing_nextRow, advanceTo_standing hadmits,
    landing_traversed hpos hle]
  by_cases hn : n < rows - length + 1
  · rw [if_pos hn, if_pos hn]
    rfl
  · rw [if_neg hn, if_neg hn]

/-- Moved forward again and again by one row, the window moves `n` times and then no more, and what
is then pending is nothing. -/
structure RunsOut (w : Window α rows cols) (n : Nat) : Prop where
  moves : ∀ i, (∃ view, (w.after (List.replicate i .advance)).advance.answer = .ok view) ↔ i < n
  drains : ∀ i, n ≤ i → (w.after (List.replicate i .advance)).pending.rows = []

theorem after_advances_last (h : make g s length = .ok w) {n : Nat} (hn : rows - length < n) :
    w.after (List.replicate n .advance) = standing g s length (some (rows - 1)) := by
  obtain ⟨-, hpos, hle, -⟩ := make_eq_ok h
  obtain ⟨n, rfl⟩ := Nat.exists_eq_succ_of_ne_zero (Nat.ne_zero_of_lt hn)
  have hlast : traversed rows length (n + 1) = some (rows - 1) := congrArg some (by omega)
  rw [after_advances h, hlast]

theorem pending_advances (h : make g s length = .ok w) {n : Nat} (hn : rows - length < n) :
    (w.after (List.replicate n .advance)).pending = s.after (rows - 1) := by
  rw [after_advances_last h hn]
  rfl

/-- A window whose schedule is filed under rows of the buffer goes through the buffer once and takes
the whole schedule with it. -/
theorem runsOut_of_make (h : make g s length = .ok w) (hrows : ∀ k ∈ s.rows, k < rows) :
    w.RunsOut (rows - length + 1) where
  moves i := by
    rw [answer_advances h]
    by_cases hi : i < rows - length + 1 <;> simp [hi]
  drains i hi := by
    rw [pending_advances h hi, List.eq_nil_iff_forall_not_mem]
    intro k hk
    obtain ⟨hk, hlast⟩ := Schedule.mem_rows_after.mp hk
    have hlt := hrows k hk
    omega

/-- Moved forward again and again by one row, a window shows every row that it can end at, once and
in order. Then it is refused and stays, and its buffer is the baseline with the whole schedule
applied; only empty buckets beyond the last row are pending. -/
theorem visits_every_row (h : make g s length = .ok w) :
    let moved (n : Nat) := w.after (List.replicate n .advance)
    let moves := rows - length + 1
    (∀ n < moves, (moved (n + 1)).cursor = some (length - 1 + n) ∧
      ∃ v, (moved n).advance.answer = .ok v ∧
        (g.asOf s (some (length - 1 + n))).Shows n (length - 1 + n) v) ∧
    length - 1 + moves = rows ∧
    ∀ n, moves ≤ n →
      (moved n).advance = ⟨moved n, .error (.outOfBounds rows rows length), []⟩ ∧
      ((Desk.ofWindow (moved n)).serve (.intoData 0)).answer =
        .ok (.data (g.correctAll s.corrections)) ∧
      (moved n).applied = s.rows.filter (· < rows) ∧
      ∀ k ∈ (moved n).pending.rows, rows ≤ k ∧ (moved n).pending.bucket k = [] := by
  intro moved moves
  obtain ⟨-, hpos, hle, hfits⟩ := make_eq_ok h
  refine ⟨fun n hn => ⟨?_, ?_⟩, by omega, fun n hn => ?_⟩
  · have hrow : traversed rows length (n + 1) = some (length - 1 + n) := congrArg some (by omega)
    rw [show moved (n + 1) = _ from after_advances h (n + 1), standing_cursor, hrow]
  · have hadmits : Admits rows length (length - 1 + n) := ⟨by omega, by omega⟩
    have hfirst : length - 1 + n + 1 - length = n := by omega
    have hshows := shown_shows (g := g) (s := s) hadmits
    rw [hfirst] at hshows
    exact ⟨_, (answer_advances h n).trans (if_pos hn), hshows⟩
  · have hlast : moved n = standing g s length (some (rows - 1)) := after_advances_last h hn
    have hadmits : ∀ c ∈ some (rows - 1), Admits rows length c := by
      intro c hc
      cases hc
      exact ⟨by omega, by omega⟩
    have hrefused : landing rows length (some (rows - 1)) rows =
        .error (.outOfBounds rows rows length) := by
      have hno : ¬Admits rows length rows := fun h => Nat.lt_irrefl rows h.2
      rw [landing, if_neg (by omega), if_neg hno]
    rw [hlast]
    refine ⟨?_, ?_, ?_, fun k hk => ?_⟩
    · have hnext : ahead length (some (rows - 1)) = rows := Nat.sub_add_cancel (by omega)
      rw [advance, standing_nextRow, hnext, advanceTo_standing hadmits, hrefused]
    · rw [← Schedule.corrections_through_last hfits]
      rfl
    · have hrows (k : Nat) : k ≤ rows - 1 ↔ k < rows := by omega
      simp only [standing, Schedule.rows_through, hrows]
    · have hk : rows ≤ k := by
        have := (Schedule.mem_rows_after.mp hk).2
        omega
      have hnil : s.bucket k = [] := Schedule.bucket_eq_nil_of_misfit?_eq_none hfits hk
      refine ⟨hk, ?_⟩
      simp only [standing, Schedule.after, Schedule.bucket_restrict, hnil, ite_self]

theorem visits_every_row_whole_buffer :
    let g : Grid Int 2 1 := #v[#v[1], #v[2]]
    let s : Schedule Int :=
      ⟨[(0, [⟨⟨0, 1, 0, 0⟩, .overwrite 10⟩]), (1, [⟨⟨1, 1, 0, 0⟩, .overwrite 20⟩]), (7, [])],
        by decide⟩
    let w : Window Int 2 1 := standing g s 2 none
    let moved := w.after [.advance]
    make g s 2 = .ok w ∧ moved.cursor = some 1 ∧
      moved.advance = ⟨moved, .error (.outOfBounds 2 2 2), []⟩ ∧
      ((Desk.ofWindow moved).serve (.intoData 0)).answer = .ok (.data #v[#v[10], #v[20]]) ∧
      moved.applied = [0, 1] ∧ moved.pending.rows = [7] := by
  intro g s w moved
  have hw : make g s 2 = .ok w := rfl
  obtain ⟨hlands, -, hends⟩ := visits_every_row hw
  obtain ⟨hrefused, hdata, happlied, -⟩ := hends 1 (by decide)
  exact ⟨hw, (hlands 0 (by decide)).1, hrefused, hdata, happlied, rfl⟩

end Window

end AsOf
