import AsOf.Load
import AsOf.Proofs.Axes
import AsOf.Proofs.Schedule

namespace AsOf

namespace Axes

variable {x : Axes} {a : Action} {t : Int} {k r col : Nat}

def row (x : Axes) (t : Int) : Nat := rowOf x.dates t

/-- The action is of an asset on the axis, and its date lies in the gap before a session: at or
after the session before, which there must be, and before the session itself. -/
def falls (x : Axes) (k : Nat) (a : Action) : Bool :=
  decide (a.sid ∈ x.assets) && decide (1 ≤ k) && x.dates[k - 1]?.any (· ≤ a.effective) &&
    x.dates[k]?.any (a.effective < ·)

/-- The action is of an asset that is not on the axis, but takes effect at a session. -/
def strays (x : Axes) (a : Action) : Bool :=
  decide (a.sid ∉ x.assets) && decide (x.start ≤ a.effective) && decide (a.effective < x.stop)

def place (x : Axes) (a : Action) : Placement :=
  if a.effective < x.start then .beforeStart
  else if x.numDates ≤ x.row a.effective then .afterLast
  else if a.sid ∈ x.assets then .cell (x.row a.effective) (x.assets.idxOf a.sid)
  else .unknown

theorem numDates_pos (x : Axes) : 0 < x.numDates := List.length_pos_iff.mpr x.dates_ne_nil

theorem start_le_iff : x.start ≤ t ↔ 0 < x.row t := by
  rw [start, ← List.getElem_zero x.numDates_pos]
  exact getElem_le_iff x.increasing x.numDates_pos

theorem lt_stop_iff : t < x.stop ↔ x.row t < x.numDates := by
  have hpos := x.numDates_pos
  have hlast : x.dates.length - 1 < x.dates.length := Nat.sub_one_lt_of_lt hpos
  have hle : x.dates[x.dates.length - 1] ≤ t ↔ _ := getElem_le_iff x.increasing hlast
  have hrow := rowOf_le_length x.dates t
  rw [stop, List.getLast_eq_getElem, ← Int.not_le, hle, row, numDates]
  omega

theorem falls_iff :
    x.falls k a ↔ a.sid ∈ x.assets ∧ x.row a.effective = k ∧ 0 < k ∧ k < x.numDates := by
  have hany (i : Nat) (p : Int → Bool) :
      x.dates[i]?.any p = true ↔ ∃ h : i < x.dates.length, p x.dates[i] = true := by
    by_cases h : i < x.dates.length <;> simp [h]
  simp only [falls, Bool.and_eq_true, decide_eq_true_eq, hany, row, ← divides_iff x.increasing]
  constructor
  · rintro ⟨⟨⟨hs, hk⟩, hprev, hle⟩, hnext, hlt⟩
    exact ⟨hs, ⟨Nat.le_of_lt hnext, fun _ => hle, fun _ => hlt⟩, hk, hnext⟩
  · rintro ⟨hs, hdivides, hk, hnext⟩
    have hprev : k - 1 < x.dates.length := Nat.lt_of_le_of_lt (Nat.sub_le k 1) hnext
    exact ⟨⟨⟨hs, hk⟩, hprev, hdivides.before hk⟩, hnext, hdivides.after hnext⟩

theorem start_le_of_falls (h : x.falls k a) : x.start ≤ a.effective := by
  obtain ⟨-, hrow, hpos, -⟩ := falls_iff.mp h
  exact start_le_iff.mpr (by omega)

theorem lt_stop_of_falls (h : x.falls k a) : a.effective < x.stop := by
  obtain ⟨-, hrow, -, hlt⟩ := falls_iff.mp h
  exact lt_stop_iff.mpr (by omega)

theorem span_contains_of_falls (h : x.falls k a) : x.span.contains a.effective := by
  rw [Span.contains_iff]
  exact ⟨start_le_of_falls h, Int.le_of_lt (lt_stop_of_falls h)⟩

theorem start_le_stop (x : Axes) : x.start ≤ x.stop :=
  x.isLeast_start.2 x.isGreatest_stop.1

theorem place_eq_beforeStart_iff : x.place a = .beforeStart ↔ a.effective < x.start := by
  unfold place
  split
  · rename_i hlt
    simp [hlt]
  · rename_i hle
    simp only [hle, iff_false]
    split
    · exact Placement.noConfusion
    · split <;> exact Placement.noConfusion

theorem place_eq_afterLast_iff : x.place a = .afterLast ↔ x.stop ≤ a.effective := by
  have hstop := lt_stop_iff (x := x) (t := a.effective)
  have horder := x.start_le_stop
  unfold place
  split
  · simp only [reduceCtorEq, false_iff]
    omega
  · split
    · simp only [true_iff]
      omega
    · split <;> simp only [reduceCtorEq, false_iff] <;> omega

theorem place_eq_cell_iff :
    x.place a = .cell r col ↔ x.falls r a ∧ x.assets.idxOf a.sid = col := by
  have hstart := start_le_iff (x := x) (t := a.effective)
  rw [falls_iff]
  unfold place
  split
  · rename_i hlt
    simp only [reduceCtorEq, false_iff]
    omega
  · split
    · rename_i hle
      simp only [reduceCtorEq, false_iff]
      omega
    · split
      · rename_i hs
        simp only [Placement.cell.injEq, hs, true_and]
        omega
      · rename_i hs
        simp [hs]

theorem place_eq_unknown_iff : x.place a = .unknown ↔ x.strays a := by
  have hstop := lt_stop_iff (x := x) (t := a.effective)
  simp only [strays, Bool.and_eq_true, decide_eq_true_eq]
  unfold place
  split
  · simp only [reduceCtorEq, false_iff]
    omega
  · split
    · simp only [reduceCtorEq, false_iff]
      omega
    · split
      · rename_i hs
        simp [hs]
      · rename_i hlt hle hs
        simp only [hs, not_false_eq_true, true_and, true_iff]
        omega

/-- An action is before the first session, or not followed by a session, or in range; in range its
asset is on the axis or it strays. -/
theorem place_cases (x : Axes) (a : Action) :
    (x.place a = .beforeStart ∧ a.effective < x.start ∧ a.effective < x.stop ∧ ¬x.strays a) ∨
    (x.place a = .afterLast ∧ x.start ≤ a.effective ∧ x.stop ≤ a.effective ∧ ¬x.strays a) ∨
    ((∃ row col, x.place a = .cell row col) ∧ x.start ≤ a.effective ∧ a.effective < x.stop ∧
      ¬x.strays a) ∨
    (x.place a = .unknown ∧ x.start ≤ a.effective ∧ a.effective < x.stop ∧ x.strays a) := by
  have hbefore := x.place_eq_beforeStart_iff (a := a)
  have hafter := x.place_eq_afterLast_iff (a := a)
  have hstrays := x.place_eq_unknown_iff (a := a)
  rw [← hbefore, ← hafter, ← hstrays, ← Int.not_lt, ← Int.not_le, ← hbefore, ← hafter]
  cases x.place a <;> simp

/-- What an action adds to a schedule, with the row under which it is filed. -/
def entry? (x : Axes) (value : Float → Float) (a : Action) : Option (Nat × Correction Float) :=
  match x.place a with
  | .cell row col => some (row, .multiplyCell row col (value a.ratio))
  | _ => none

def schedule (x : Axes) (value : Float → Float) (as : List Action) : Schedule Float :=
  Schedule.empty.pushAll (as.filterMap (x.entry? value))

/-- The corrections of the actions that fall on a row, in the order given. -/
def falling (x : Axes) (value : Float → Float) (k : Nat) (as : List Action) :
    List (Correction Float) :=
  (as.filter (x.falls k)).map fun a => .multiplyCell k (x.assets.idxOf a.sid) (value a.ratio)

theorem entry?_eq_some_iff {value : Float → Float} {c : Correction Float} :
    x.entry? value a = some (k, c) ↔ x.falls k a ∧
      .multiplyCell k (x.assets.idxOf a.sid) (value a.ratio) = c := by
  unfold entry?
  constructor
  · intro h
    split at h
    · rename_i r col hplace
      obtain ⟨hfalls, rfl⟩ := place_eq_cell_iff.mp hplace
      cases h
      exact ⟨hfalls, rfl⟩
    · cases h
  · rintro ⟨hfalls, rfl⟩
    rw [place_eq_cell_iff.mpr ⟨hfalls, rfl⟩]

theorem bucket_schedule (value : Float → Float) (as : List Action) (k : Nat) :
    (x.schedule value as).bucket k = x.falling value k as := by
  rw [schedule, Schedule.bucket_pushAll, Schedule.bucket_empty, List.nil_append, falling]
  induction as with
  | nil => rfl
  | cons a as ih =>
    by_cases h : x.falls k a
    · have he : x.entry? value a =
          some (k, .multiplyCell k (x.assets.idxOf a.sid) (value a.ratio)) :=
        entry?_eq_some_iff.mpr ⟨h, rfl⟩
      rw [List.filterMap_cons_some he, List.filter_cons_of_pos (by simp),
        List.filter_cons_of_pos h, List.map_cons, List.map_cons, ih]
    · rw [List.filter_cons_of_neg h, ← ih]
      cases he : x.entry? value a with
      | none => rw [List.filterMap_cons_none he]
      | some e =>
        have hne : e.1 ≠ k := by
          rintro rfl
          obtain ⟨r, c⟩ := e
          exact h (entry?_eq_some_iff.mp he).1
        rw [List.filterMap_cons_some he, List.filter_cons_of_neg (by simpa using hne)]

theorem mem_rows_schedule {value : Float → Float} {as : List Action} :
    k ∈ (x.schedule value as).rows ↔ x.falling value k as ≠ [] := by
  rw [← bucket_schedule, schedule, Schedule.mem_rows_pushAll, Schedule.bucket_pushAll]
  simp

end Axes

end AsOf
