import AsOf.Proofs.Schedule
import AsOf.Window

namespace AsOf

namespace Grid

variable {α : Type} [Cell α] {rows cols : Nat}

theorem correctAll_append (g : Grid α rows cols) (cs ds : List (Correction α)) :
    g.correctAll (cs ++ ds) = (g.correctAll cs).correctAll ds :=
  List.foldl_append

end Grid

namespace Window

variable {α : Type} [Cell α] {rows cols : Nat}
variable {g : Grid α rows cols} {s : Schedule α} {length c row : Nat} {p : Option Nat}
variable {w : Window α rows cols}

/-- The window over a buffer and a schedule that has been moved to a row, or not yet. -/
def standing (g : Grid α rows cols) (s : Schedule α) (length : Nat) :
    Option Nat → Window α rows cols
  | none => ⟨g, s, [], length, none⟩
  | some c =>
    ⟨g.correctAll (s.through c).corrections, s.after c, (s.through c).rows, length, some c⟩

@[simp] theorem standing_cursor : (standing g s length p).cursor = p := by
  cases p <;> rfl

@[simp] theorem standing_length : (standing g s length p).length = length := by
  cases p <;> rfl

def Admits (rows length row : Nat) : Prop := length ≤ row + 1 ∧ row < rows

instance : Decidable (Admits rows length row) := inferInstanceAs (Decidable (_ ∧ _))

theorem make_eq_ok (h : make g s length = .ok w) :
    w = standing g s length none ∧ 0 < length ∧ length ≤ rows ∧ s.misfit? rows cols = none := by
  unfold make checkLength checkSchedule at h
  split at h
  · cases h
  · split at h
    · cases h
    · rename_i hpos hle
      cases hm : s.misfit? rows cols with
      | some e =>
        rw [hm] at h
        cases h
      | none =>
        rw [hm] at h
        cases h
        exact ⟨rfl, by omega, by omega, rfl⟩

theorem make_ok (hpos : 0 < length) (hle : length ≤ rows) (hm : s.misfit? rows cols = none) :
    make g s length = .ok (standing g s length none) := by
  unfold make checkLength checkSchedule
  rw [if_neg (by omega), if_neg (by omega), hm]
  rfl

/-- Moving on from a cursor applies what lies between, which completes what had been applied. -/
theorem applyThrough_standing (h : ∀ c ∈ p, c ≤ row) :
    { (standing g s length p).applyThrough row with cursor := some row } =
      standing g s length (some row) := by
  cases p with
  | none => rfl
  | some c =>
    have hc : c ≤ row := h c rfl
    simp only [standing, applyThrough, ← Grid.correctAll_append,
      Schedule.corrections_append_between hc, Schedule.rows_append_between hc,
      Schedule.after_after hc]

/-- The row at which a window ends after it has been asked to end at `row`. -/
def landing (rows length : Nat) (p : Option Nat) (row : Nat) : Except WindowFault Nat :=
  match p with
  | some c =>
    if row < c then .error (.rewind row c)
    else if Admits rows length row then .ok row else .error (.outOfBounds row rows length)
  | none => if Admits rows length row then .ok row else .error (.outOfBounds row rows length)

theorem landing_eq_ok (h : landing rows length p row = .ok c) :
    c = row ∧ Admits rows length row ∧ ∀ d ∈ p, d ≤ row := by
  cases p with
  | none =>
    simp only [landing] at h
    split at h
    · rename_i ha
      cases h
      exact ⟨rfl, ha, fun d hd => by cases hd⟩
    · cases h
  | some d =>
    simp only [landing] at h
    split at h
    · cases h
    · split at h
      · rename_i hd ha
        cases h
        refine ⟨rfl, ha, fun e he => ?_⟩
        cases he
        omega
      · cases h

/-- What is logged on the way from a cursor to a row. -/
def passing (s : Schedule α) (p : Option Nat) (row : Nat) : List Event :=
  let due := match p with
    | some c => (s.after c).through row
    | none => s.through row
  if due.buckets.isEmpty then []
  else [.applied (Cell.kind α) row (s.through row).rows.length due.cells]

theorem moveTo_standing (h : ∀ d ∈ p, d ≤ row) :
    (standing g s length p).moveTo row =
      if Admits rows length row then
        ⟨standing g s length (some row), .ok ((standing g s length (some row)).viewAt row),
          passing s p row⟩
      else ⟨standing g s length p, .error (.outOfBounds row rows length), []⟩ := by
  have hevents : (standing g s length p).appliedEvents row = passing s p row := by
    cases p with
    | none => simp [appliedEvents, passing, standing]
    | some c =>
      have hlen : (s.through c).rows.length + ((s.after c).through row).rows.length =
          (s.through row).rows.length := by
        rw [← List.length_append, Schedule.rows_append_between (h c rfl)]
      simp only [appliedEvents, passing, standing, hlen]
  unfold moveTo
  by_cases ha : Admits rows length row
  · have hno : ¬(rows ≤ row ∨ row + 1 < (standing g s length p).length) := by
      rw [standing_length]
      exact fun h => h.elim (Nat.not_le.mpr ha.2) (Nat.not_lt.mpr ha.1)
    rw [if_neg hno, if_pos ha, hevents]
    simp only [applyThrough_standing h]
  · have hyes : rows ≤ row ∨ row + 1 < (standing g s length p).length := by
      rw [standing_length]
      unfold Admits at ha
      omega
    rw [if_pos hyes, if_neg ha, standing_length]

theorem advanceTo_standing (hp : ∀ c ∈ p, Admits rows length c) (row : Nat) :
    (standing g s length p).advanceTo row =
      match landing rows length p row with
      | .ok r =>
        ⟨standing g s length (some r), .ok ((standing g s length (some r)).viewAt r),
          if r ∈ p then [] else passing s p r⟩
      | .error e => ⟨standing g s length p, .error e, []⟩ := by
  unfold advanceTo
  cases p with
  | none =>
    simp only [standing_cursor, landing]
    rw [moveTo_standing fun d hd => by cases hd]
    by_cases ha : Admits rows length row <;> simp [ha]
  | some c =>
    simp only [standing_cursor, landing]
    by_cases hlt : row < c
    · simp [hlt]
    · rw [if_neg hlt, if_neg hlt]
      by_cases he : row = c
      · subst he
        simp [hp row rfl]
      · rw [if_neg he, moveTo_standing (by intro d hd; cases hd; omega)]
        by_cases ha : Admits rows length row
        · have hne : ¬c = row := fun h => he h.symm
          simp [ha, hne]
        · simp [ha]

def ahead (length : Nat) : Option Nat → Nat
  | some c => c + 1
  | none => length - 1

@[simp] theorem standing_nextRow : (standing g s length p).nextRow = ahead length p := by
  cases p <;> rfl

/-- The row that a request asks a window at a cursor to end at. -/
def goal (length : Nat) (p : Option Nat) : Request → Option Nat
  | .advanceTo row => some row
  | .advance => some (ahead length p)
  | .view | .snapshot | .shape => none

def nextCursor (rows length : Nat) (p : Option Nat) (q : Request) : Option Nat :=
  match goal length p q with
  | some row =>
    match landing rows length p row with
    | .ok r => some r
    | .error _ => p
  | none => p

theorem nextCursor_admits (hp : ∀ c ∈ p, Admits rows length c) (q : Request) :
    ∀ c ∈ nextCursor rows length p q, Admits rows length c := by
  intro c hc
  unfold nextCursor at hc
  split at hc
  · rename_i row _
    cases hl : landing rows length p row with
    | error e =>
      rw [hl] at hc
      exact hp c hc
    | ok r =>
      rw [hl] at hc
      cases hc
      obtain ⟨rfl, ha, -⟩ := landing_eq_ok hl
      exact ha
  · exact hp c hc

/-- The step law: a request moves the cursor and does nothing else. -/
theorem serve_standing (hp : ∀ c ∈ p, Admits rows length c) (q : Request) :
    ((standing g s length p).serve q).window =
      standing g s length (nextCursor rows length p q) := by
  have hmove (row : Nat) : ((standing g s length p).advanceTo row).window =
      standing g s length (nextCursor rows length p (.advanceTo row)) := by
    rw [advanceTo_standing hp]
    simp only [nextCursor, goal]
    cases landing rows length p row <;> rfl
  cases q with
  | advanceTo row => exact hmove row
  | advance =>
    change ((standing g s length p).advanceTo (standing g s length p).nextRow).window = _
    rw [standing_nextRow]
    exact hmove _
  | view => rfl
  | snapshot => rfl
  | shape => rfl

def shown (g : Grid α rows cols) (s : Schedule α) (length c : Nat) : View α cols :=
  (standing g s length (some c)).viewAt c

@[simp] theorem standing_view : (standing g s length p).view = p.map (shown g s length) := by
  cases p <;> rfl

/-- The answer to a request as far as it depends on the views. -/
def replyAt (rows length : Nat) (shown : Nat → View α cols) (p : Option Nat) :
    Request → Except WindowFault (Reply α cols)
  | .advanceTo row => (landing rows length p row).map (.moved ∘ shown)
  | .advance => (landing rows length p (ahead length p)).map (.moved ∘ shown)
  | .view | .snapshot => .ok (.current (p.map shown))
  | .shape => .ok (.shape length cols)

theorem answer_standing (hp : ∀ c ∈ p, Admits rows length c) (q : Request) :
    ((standing g s length p).serve q).answer = replyAt rows length (shown g s length) p q := by
  have hmove (row : Nat) : ((standing g s length p).advanceTo row).answer.map .moved =
      replyAt rows length (shown g s length) p (.advanceTo row) := by
    rw [advanceTo_standing hp]
    simp only [replyAt]
    cases landing rows length p row <;> rfl
  cases q with
  | advanceTo row => exact hmove row
  | advance =>
    change ((standing g s length p).advanceTo (standing g s length p).nextRow).answer.map _ = _
    rw [standing_nextRow]
    exact hmove _
  | view => simp only [serve, standing_view, replyAt]
  | snapshot => simp only [serve, standing_view, replyAt]
  | shape => simp only [serve, standing_length, replyAt]

def cursorAfter (rows length : Nat) (p : Option Nat) (qs : List Request) : Option Nat :=
  qs.foldl (nextCursor rows length) p

theorem cursorAfter_admits (hp : ∀ c ∈ p, Admits rows length c) (qs : List Request) :
    ∀ c ∈ cursorAfter rows length p qs, Admits rows length c := by
  induction qs generalizing p with
  | nil => exact hp
  | cons q qs ih => exact ih (nextCursor_admits hp q)

/-- The run law: after any run a window stands at its cursor. -/
theorem after_standing (hp : ∀ c ∈ p, Admits rows length c) (qs : List Request) :
    (standing g s length p).after qs = standing g s length (cursorAfter rows length p qs) := by
  induction qs generalizing p with
  | nil => rfl
  | cons q qs ih =>
    have hstep := serve_standing (g := g) (s := s) hp q
    have hrest := ih (nextCursor_admits hp q)
    rw [← hstep] at hrest
    exact hrest

theorem admits_none : ∀ c ∈ (none : Option Nat), Admits rows length c :=
  fun _ hc => nomatch hc

/-- Every state that a window can reach is one in which it stands at a row that it can end at, or
has not been placed. -/
theorem after_make (h : make g s length = .ok w) (qs : List Request) :
    w.after qs = standing g s length (cursorAfter rows length none qs) ∧
      ∀ c ∈ cursorAfter rows length none qs, Admits rows length c := by
  obtain ⟨rfl, -, -, -⟩ := make_eq_ok h
  exact ⟨after_standing admits_none qs, cursorAfter_admits admits_none qs⟩

end Window

end AsOf
