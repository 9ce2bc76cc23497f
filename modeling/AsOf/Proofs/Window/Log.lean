import AsOf.Proofs.Window.Advance
import AsOf.Proofs.Window.Construction
import Mathlib.Algebra.BigOperators.Group.Finset.Piecewise
import Mathlib.Algebra.Order.Ring.Nat
import Mathlib.Order.Interval.Finset.Nat

namespace AsOf

namespace Rect

variable {r : Rect} {rows cols : Nat}

/-- The cells of a buffer that lie in the rectangle. -/
def cells (r : Rect) (rows cols : Nat) : Finset (Nat × Nat) :=
  (Finset.range rows ×ˢ Finset.range cols).filter fun p => r.contains p.1 p.2

theorem cells_eq (h : r.Fits rows cols) :
    r.cells rows cols = Finset.Icc r.firstRow r.lastRow ×ˢ Finset.Icc r.firstCol r.lastCol := by
  obtain ⟨⟨_, hrow⟩, _, hcol⟩ := h
  ext ⟨i, j⟩
  simp only [cells, contains, Finset.mem_filter, Finset.mem_product, Finset.mem_range,
    Finset.mem_Icc, Bool.and_eq_true, decide_eq_true_eq]
  omega

theorem size_eq_card (h : r.Fits rows cols) : r.size = (r.cells rows cols).card := by
  obtain ⟨⟨hrow, _⟩, hcol, _⟩ := id h
  rw [cells_eq h, Finset.card_product, Nat.card_Icc, Nat.card_Icc, size, Nat.sub_add_comm hrow,
    Nat.sub_add_comm hcol]

theorem sum_countP_contains {α : Type} {rows cols : Nat} {cs : List (Correction α)}
    (h : ∀ c ∈ cs, c.rect.Fits rows cols) :
    ∑ p ∈ Finset.range rows ×ˢ Finset.range cols, cs.countP (·.rect.contains p.1 p.2) =
      (cs.map fun c => c.rect.size).sum := by
  induction cs with
  | nil => exact Finset.sum_const_zero
  | cons c cs ih =>
    obtain ⟨hc, hcs⟩ := List.forall_mem_cons.mp h
    simp only [List.countP_cons, Finset.sum_add_distrib, ih hcs, List.map_cons, List.sum_cons,
      size_eq_card hc, cells, Finset.card_filter]
    exact Nat.add_comm _ _

end Rect

namespace Schedule

variable {α : Type} {s : Schedule α} {p : Option Nat} {k row : Nat}

/-- The rows of a schedule at or before a cursor; none if there is no cursor. -/
def upTo (s : Schedule α) (p : Option Nat) : List Nat := s.rows.filter fun k => p.any (k ≤ ·)

/-- The rows of a schedule after a cursor, if there is one, and at or before a row. -/
def passed (s : Schedule α) (p : Option Nat) (row : Nat) : List Nat :=
  s.rows.filter fun k => p.all (· < k) && decide (k ≤ row)

def cellsUnder (s : Schedule α) (ks : List Nat) : Nat :=
  ((ks.flatMap s.bucket).map fun c => c.rect.size).sum

@[simp] theorem upTo_none : s.upTo none = [] := by
  simp [upTo]

@[simp] theorem cellsUnder_nil : s.cellsUnder [] = 0 := rfl

theorem mem_passed : k ∈ s.passed p row ↔ k ∈ s.rows ∧ (∀ c ∈ p, c < k) ∧ k ≤ row := by
  cases p <;> simp [passed]

theorem passed_eq_nil_of_mem (h : row ∈ p) : s.passed p row = [] := by
  rw [List.eq_nil_iff_forall_not_mem]
  intro k hk
  obtain ⟨-, hlt, hle⟩ := mem_passed.mp hk
  exact Nat.not_le.mpr (hlt row h) hle

theorem upTo_append_passed (h : ∀ c ∈ p, c ≤ row) :
    s.upTo p ++ s.passed p row = s.upTo (some row) := by
  cases p with
  | none => simp [upTo, passed]
  | some c =>
    have hrows := s.rows_append_between (h c rfl)
    simp only [rows_through, after, rows_restrict, List.filter_filter] at hrows
    simpa [upTo, passed, Bool.and_comm] using hrows

theorem through_after (s : Schedule α) (c row : Nat) :
    (s.after c).through row = s.restrict fun k => (some c).all (· < k) && decide (k ≤ row) := by
  simp only [after, through, restrict, List.filter_filter, Option.all_some, Bool.and_comm]

theorem cellsUnder_append (s : Schedule α) (ks js : List Nat) :
    s.cellsUnder (ks ++ js) = s.cellsUnder ks + s.cellsUnder js := by
  simp [cellsUnder]

theorem cells_restrict (s : Schedule α) (f : Nat → Bool) :
    (s.restrict f).cells = s.cellsUnder (s.rows.filter f) := by
  rw [cells, corrections_restrict, cellsUnder, List.sum, List.foldr_map]

end Schedule

def Event.cells : Event → Nat
  | .applied _ _ _ n => n
  | _ => 0

namespace Window

variable {α : Type} [Cell α] {rows cols : Nat}
variable {g : Grid α rows cols} {s : Schedule α} {length row : Nat} {p : Option Nat}
variable {w : Window α rows cols}

def log (w : Window α rows cols) (qs : List Request) : List Event :=
  (w.serveAll qs).flatMap Turn.events

/-- The request moves the window to a row and takes it past rows of a schedule. -/
def Passes (w : Window α rows cols) (s : Schedule α) (q : Request) (row : Nat) : Prop :=
  (∃ v, (w.serve q).answer = .ok (.moved v)) ∧ (w.serve q).window.cursor = some row ∧
    ∃ k ∈ s.rows, (∀ c ∈ w.cursor, c < k) ∧ k ≤ row

theorem passing_eq (s : Schedule α) (p : Option Nat) (row : Nat) :
    passing s p row =
      if s.passed p row = [] then []
      else [.applied (Cell.kind α) row (s.rows.countP (· ≤ row))
        (s.cellsUnder (s.passed p row))] := by
  have hdue (f : Nat → Bool) (hf : s.rows.filter f = s.passed p row) :
      (if (s.restrict f).buckets.isEmpty then []
        else [Event.applied (Cell.kind α) row (s.through row).rows.length (s.restrict f).cells]) =
      if s.passed p row = [] then []
      else [.applied (Cell.kind α) row (s.rows.countP (· ≤ row))
        (s.cellsUnder (s.passed p row))] := by
    have hempty : (s.restrict f).buckets.isEmpty = true ↔ s.passed p row = [] := by
      rw [List.isEmpty_iff, ← hf, ← Schedule.rows_restrict, Schedule.rows, List.map_eq_nil_iff]
    simp only [hempty, Schedule.cells_restrict, hf, Schedule.rows_through,
      List.countP_eq_length_filter]
  cases p with
  | none =>
    apply hdue (· ≤ row)
    simp [Schedule.passed]
  | some c =>
    change (if ((s.after c).through row).buckets.isEmpty then []
      else [Event.applied (Cell.kind α) row (s.through row).rows.length
        ((s.after c).through row).cells]) = _
    rw [Schedule.through_after]
    exact hdue _ rfl

/-- What a turn has to do with the cursor: it moves it to a row and logs what it passes on the way,
or it leaves it where it is and logs nothing. -/
inductive Logs (s : Schedule α) (p next : Option Nat) (t : Turn α rows cols (Reply α cols)) : Prop
  | moved (row : Nat) (v : View α cols) (hnext : next = some row) (hle : ∀ c ∈ p, c ≤ row)
      (hanswer : t.answer = .ok (.moved v)) (hevents : t.events = passing s p row)
  | stayed (hnext : next = p) (hanswer : ∀ v, t.answer ≠ .ok (.moved v)) (hevents : t.events = [])

theorem logs_advanceTo (hp : ∀ c ∈ p, Admits rows length c) (row : Nat) :
    let t := (standing g s length p).advanceTo row
    Logs s p (nextCursor rows length p (.advanceTo row))
      ⟨t.window, t.answer.map .moved, t.events⟩ := by
  rw [advanceTo_standing hp]
  cases hl : landing rows length p row with
  | error e =>
    apply Logs.stayed
    · simp only [nextCursor, goal, hl]
    · intro v hv
      cases hv
    · rfl
  | ok c =>
    obtain ⟨rfl, -, hle⟩ := landing_eq_ok hl
    apply Logs.moved c
    · simp only [nextCursor, goal, hl]
    · exact hle
    · rfl
    · change (if c ∈ p then [] else passing s p c) = passing s p c
      by_cases hc : c ∈ p
      · rw [if_pos hc, passing_eq, if_pos (Schedule.passed_eq_nil_of_mem hc)]
      · exact if_neg hc

/-- The step law: the log follows the cursor. -/
theorem logs_serve (hp : ∀ c ∈ p, Admits rows length c) (q : Request) :
    Logs s p (nextCursor rows length p q) ((standing g s length p).serve q) := by
  have hstayed (current : Reply α cols) (hno : ∀ v, current ≠ .moved v) :
      Logs s p p ⟨standing g s length p, .ok current, []⟩ := by
    apply Logs.stayed rfl
    · intro v hv
      cases hv
      exact hno v rfl
    · rfl
  cases q with
  | advanceTo row => exact logs_advanceTo hp row
  | advance =>
    have hmove := logs_advanceTo (g := g) (s := s) hp (ahead length p)
    unfold serve advance
    rw [standing_nextRow]
    exact hmove
  | view => exact hstayed _ fun v hv => by cases hv
  | snapshot => exact hstayed _ fun v hv => by cases hv
  | shape => exact hstayed _ fun v hv => by cases hv

theorem log_cons (w : Window α rows cols) (q : Request) (qs : List Request) :
    w.log (q :: qs) = (w.serve q).events ++ (w.serve q).window.log qs := List.flatMap_cons

theorem cells_passing (s : Schedule α) (p : Option Nat) (row : Nat) :
    ((passing s p row).map Event.cells).sum = s.cellsUnder (s.passed p row) := by
  rw [passing_eq]
  by_cases h : s.passed p row = []
  · rw [if_pos h, h]
    rfl
  · rw [if_neg h, List.map_singleton, List.sum_singleton]
    rfl

theorem Logs.cells {next : Option Nat} {t : Turn α rows cols (Reply α cols)}
    (h : Logs s p next t) :
    s.cellsUnder (s.upTo p) + (t.events.map Event.cells).sum = s.cellsUnder (s.upTo next) := by
  cases h with
  | moved row v hnext hle _ hevents =>
    rw [hevents, cells_passing, ← Schedule.cellsUnder_append, Schedule.upTo_append_passed hle,
      hnext]
  | stayed hnext _ hevents =>
    rw [hevents, hnext]
    rfl

/-- The run law: what is logged completes what had been applied. -/
theorem cells_log (hp : ∀ c ∈ p, Admits rows length c) (qs : List Request) :
    s.cellsUnder (s.upTo p) + (((standing g s length p).log qs).map Event.cells).sum =
      s.cellsUnder (s.upTo (cursorAfter rows length p qs)) := by
  induction qs generalizing p with
  | nil => rfl
  | cons q qs ih =>
    have hstep := (logs_serve (g := g) (s := s) hp q).cells
    rw [log_cons, serve_standing hp, List.map_append, List.sum_append, ← Nat.add_assoc, hstep]
    exact ih (nextCursor_admits hp q)

theorem events_serve (hp : ∀ c ∈ p, Admits rows length c) (q : Request) :
    (∀ row, (standing g s length p).Passes s q row →
      ((standing g s length p).serve q).events =
        [.applied (Cell.kind α) row (s.rows.countP (· ≤ row)) (s.cellsUnder (s.passed p row))]) ∧
    ((∀ row, ¬(standing g s length p).Passes s q row) →
      ((standing g s length p).serve q).events = []) := by
  have hcursor : ((standing g s length p).serve q).window.cursor = nextCursor rows length p q := by
    rw [serve_standing hp, standing_cursor]
  unfold Passes
  rw [hcursor, standing_cursor]
  cases logs_serve (g := g) (s := s) hp q with
  | moved row v hnext _ hanswer hevents =>
    rw [hevents, passing_eq]
    constructor
    · rintro r ⟨-, hr, k, hk, hlt, hle⟩
      obtain rfl : row = r := Option.some.inj (hnext.symm.trans hr)
      exact if_neg (List.ne_nil_of_mem (Schedule.mem_passed.mpr ⟨hk, hlt, hle⟩))
    · intro hno
      apply if_pos
      rw [List.eq_nil_iff_forall_not_mem]
      intro k hk
      exact hno row ⟨⟨v, hanswer⟩, hnext, k, Schedule.mem_passed.mp hk⟩
  | stayed _ hanswer hevents =>
    constructor
    · rintro row ⟨⟨v, hv⟩, -⟩
      exact absurd hv (hanswer v)
    · intro _
      exact hevents

theorem serveAll_concat (w : Window α rows cols) (qs : List Request) (q : Request) :
    w.serveAll (qs ++ [q]) = w.serveAll qs ++ [(w.after qs).serve q] := by
  induction qs generalizing w with
  | nil => rfl
  | cons r qs ih =>
    rw [List.cons_append, serveAll, ih]
    rfl

/-- A step of a run logs one event if it takes the window past rows of the schedule, and nothing
else. The cells that are logged in a run are those of all corrections that are filed at or before
the cursor, each rectangle counted with all of its cells. -/
theorem log_accounts (h : make g s length = .ok w) (qs : List Request) :
    (∀ q, w.serveAll (qs ++ [q]) = w.serveAll qs ++ [(w.after qs).serve q] ∧
      (∀ row, (w.after qs).Passes s q row → ((w.after qs).serve q).events =
        [.applied (Cell.kind α) row (s.rows.countP (· ≤ row))
          (s.cellsUnder (s.passed (w.after qs).cursor row))]) ∧
      ((∀ row, ¬(w.after qs).Passes s q row) → ((w.after qs).serve q).events = [])) ∧
    ((w.log qs).map Event.cells).sum = s.cellsUnder (s.upTo (w.after qs).cursor) ∧
    ∀ c ∈ s.corrections, c.rect.size = (c.rect.cells rows cols).card := by
  obtain ⟨hafter, hadmits⟩ := after_make h qs
  obtain ⟨rfl, -, -, hfits⟩ := make_eq_ok h
  refine ⟨fun q => ⟨serveAll_concat _ qs q, ?_⟩, ?_, ?_⟩
  · rw [hafter, standing_cursor]
    exact events_serve hadmits q
  · have hnone : ∀ c ∈ (none : Option Nat), Admits rows length c := admits_none
    have hlog := cells_log (g := g) (s := s) hnone qs
    rw [Schedule.upTo_none, Schedule.cellsUnder_nil, Nat.zero_add] at hlog
    rw [hafter, standing_cursor, hlog]
  · intro c hc
    exact Rect.size_eq_card (Schedule.fits_of_misfit?_eq_none hfits c hc)

theorem log_accounts_jumps :
    let g : Grid Int 4 2 := #v[#v[1, 2], #v[3, 4], #v[5, 6], #v[7, 8]]
    let s : Schedule Int :=
      ⟨[(0, []), (1, [⟨⟨0, 1, 0, 1⟩, .overwrite 10⟩]),
        (3, [⟨⟨2, 2, 0, 0⟩, .overwrite 20⟩, ⟨⟨2, 3, 1, 1⟩, .multiply 2⟩]), (9, [])], by decide⟩
    let w : Window Int 4 2 := standing g s 2 none
    let qs : List Request := [.advanceTo 0, .advanceTo 2, .advanceTo 1, .advanceTo 2]
    make g s 2 = .ok w ∧
      ((w.after [.advanceTo 0]).serve (.advanceTo 2)).events = [.applied .int64 2 2 4] ∧
      ((w.after qs).serve .advance).events = [.applied .int64 3 3 3] ∧
      ((w.after (qs ++ [.advance])).serve .advance).events = [] ∧
      ((w.log (qs ++ [.advance])).map Event.cells).sum = 7 := by
  intro g s w qs
  have hw : make g s 2 = .ok w := rfl
  have hjump := (log_accounts hw [.advanceTo 0]).1 (.advanceTo 2)
  have hlast := (log_accounts hw qs).1 .advance
  have hend := (log_accounts hw (qs ++ [.advance])).1 .advance
  refine ⟨hw, ?_, ?_, ?_, ?_⟩
  · refine hjump.2.1 2 ⟨⟨_, rfl⟩, rfl, 0, by decide, ?_, by decide⟩
    intro c hc
    cases hc
  · refine hlast.2.1 3 ⟨⟨_, rfl⟩, rfl, 3, by decide, ?_, by decide⟩
    intro c hc
    cases hc
    decide
  · apply hend.2.2
    rintro row ⟨⟨v, hv⟩, -⟩
    cases hv
  · have hsum := (log_accounts hw (qs ++ [.advance])).2.1
    have hcursor : (w.after (qs ++ [.advance])).cursor = some 3 := rfl
    rw [hcursor] at hsum
    exact hsum

/-- Corrections leave those that are pending and are applied to the buffer, and the events say how
many cells they have. -/
structure Retires (w w' : Window α rows cols) (events : List Event) (due : List (Correction α)) :
    Prop where
  pending : w.pending.corrections = due ++ w'.pending.corrections
  buffer : w'.buffer = w.buffer.correctAll due
  cells : (events.map Event.cells).sum = (due.map fun c => c.rect.size).sum

variable {w' w'' : Window α rows cols} {due due' : List (Correction α)} {es es' : List Event}

theorem retires_nothing (w : Window α rows cols) : w.Retires w [] [] := ⟨rfl, rfl, rfl⟩

theorem Retires.trans (h : w.Retires w' es due) (h' : w'.Retires w'' es' due') :
    w.Retires w'' (es ++ es') (due ++ due') where
  pending := by rw [h.pending, h'.pending, List.append_assoc]
  buffer := by rw [h'.buffer, h.buffer, Grid.correctAll_append]
  cells := by rw [List.map_append, List.sum_append, h.cells, h'.cells, List.map_append,
    List.sum_append]

theorem retires_applyThrough (w : Window α rows cols) (row : Nat) :
    w.Retires { w.applyThrough row with cursor := some row } (w.appliedEvents row)
      (w.pending.through row).corrections where
  pending := by
    rw [Schedule.corrections, ← w.pending.through_append_after row, List.flatMap_append]
    rfl
  buffer := rfl
  cells := by
    rw [appliedEvents]
    by_cases hnone : (w.pending.through row).buckets = []
    · rw [if_pos (List.isEmpty_iff.mpr hnone), Schedule.corrections, hnone]
      rfl
    · rw [if_neg (mt List.isEmpty_iff.mp hnone), List.map_singleton, List.sum_singleton,
        List.sum, List.foldr_map]
      rfl

theorem retires_advanceTo (w : Window α rows cols) (row : Nat) :
    ∃ due, w.Retires (w.advanceTo row).window (w.advanceTo row).events due := by
  have hmove : ∃ due, w.Retires (w.moveTo row).window (w.moveTo row).events due := by
    unfold moveTo
    split
    · exact ⟨[], w.retires_nothing⟩
    · exact ⟨_, w.retires_applyThrough row⟩
  unfold advanceTo
  split
  · split
    · exact ⟨[], w.retires_nothing⟩
    · split
      · exact ⟨[], w.retires_nothing⟩
      · exact hmove
  · exact hmove

theorem retires_serve (w : Window α rows cols) (q : Request) :
    ∃ due, w.Retires (w.serve q).window (w.serve q).events due := by
  cases q with
  | advanceTo row => exact w.retires_advanceTo row
  | advance => exact w.retires_advanceTo w.nextRow
  | view | snapshot | shape => exact ⟨[], w.retires_nothing⟩

theorem retires_after (w : Window α rows cols) (qs : List Request) :
    ∃ due, w.Retires (w.after qs) (w.log qs) due := by
  induction qs generalizing w with
  | nil => exact ⟨[], w.retires_nothing⟩
  | cons q qs ih =>
    obtain ⟨due, hfirst⟩ := w.retires_serve q
    obtain ⟨due', hrest⟩ := ih (w.serve q).window
    rw [log_cons]
    exact ⟨due ++ due', hfirst.trans hrest⟩

/-- The cells that are logged in a run are those that it corrects in the buffer, each counted once
for every correction that it passes through. -/
theorem log_counts_corrected_cells (h : make g s length = .ok w) (qs : List Request) :
    ∃ due, s.corrections = due ++ (w.after qs).pending.corrections ∧
      (w.after qs).buffer = g.correctAll due ∧
      ((w.log qs).map Event.cells).sum =
        ∑ p ∈ Finset.range rows ×ˢ Finset.range cols, due.countP (·.rect.contains p.1 p.2) := by
  obtain ⟨due, hretires⟩ := w.retires_after qs
  obtain ⟨rfl, -, -, hfits⟩ := make_eq_ok h
  have hpending : s.corrections = due ++ _ := hretires.pending
  have hdue : ∀ c ∈ due, c.rect.Fits rows cols := fun c hc =>
    Schedule.fits_of_misfit?_eq_none hfits c (hpending ▸ List.mem_append_left _ hc)
  refine ⟨due, hpending, hretires.buffer, ?_⟩
  rw [hretires.cells, Rect.sum_countP_contains hdue]

end Window

end AsOf
