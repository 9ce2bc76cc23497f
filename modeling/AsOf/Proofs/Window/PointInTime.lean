import AsOf.Panel
import AsOf.Proofs.Window.Standing

namespace AsOf

/-- The corrections of a cell that are known at a row, in the order of their rows and, within a row,
in the order of the bucket. -/
def Schedule.covering {α : Type} (s : Schedule α) (row i j : Nat) : List (Correction α) :=
  ((s.rows.filter (· ≤ row)).flatMap s.bucket).filter (·.rect.contains i j)

namespace Grid

variable {α : Type} {rows cols : Nat}

/-- The view consists of the rows of the buffer from `first` to `last`. -/
def Shows (g : Grid α rows cols) (first last : Nat) (v : View α cols) : Prop :=
  v.length = last + 1 - first ∧ ∀ k < v.length, v[k]? = g[first + k]?

theorem shows_rowsFrom (g : Grid α rows cols) {first count last : Nat}
    (hcount : count = last + 1 - first) (hlast : last < rows) :
    g.Shows first last (g.rowsFrom first count) := by
  have hlen : (g.rowsFrom first count).length = count := by
    simp only [rowsFrom, List.length_take, List.length_drop, Vector.length_toList]
    omega
  refine ⟨by rw [hlen, hcount], fun k hk => ?_⟩
  rw [hlen] at hk
  rw [rowsFrom, List.getElem?_take, if_pos hk, List.getElem?_drop]
  exact Vector.getElem?_toList

variable [Cell α]

/-- A buffer as it is known at a row: each cell passes through the known corrections that cover it.
Before any row nothing is known. -/
def asOf (g : Grid α rows cols) (s : Schedule α) : Option Nat → Grid α rows cols
  | none => g
  | some row =>
    Vector.ofFn fun i => Vector.ofFn fun j =>
      (s.covering row i j).foldl (fun x c => (c.apply x).getD x) ((g.get i).get j)

theorem foldl_applyAt (cs : List (Correction α)) (i j : Nat) (x : α) :
    cs.foldl (fun x c => c.applyAt i j x) x =
      (cs.filter (·.rect.contains i j)).foldl (fun x c => (c.apply x).getD x) x := by
  rw [List.foldl_filter]
  rfl

theorem correctAll_through (g : Grid α rows cols) (s : Schedule α) (c : Nat) :
    g.correctAll (s.through c).corrections = g.asOf s (some c) := by
  ext i hi j hj
  rw [getElem_correctAll, foldl_applyAt, Schedule.corrections_through]
  simp only [asOf, Vector.getElem_ofFn]
  rfl

end Grid

namespace Window

variable {α : Type} [Cell α] {rows cols : Nat}
variable {g : Grid α rows cols} {s : Schedule α} {length : Nat} {p : Option Nat}
variable {w : Window α rows cols}

def moved? : Except WindowFault (Reply α cols) → Option (View α cols)
  | .ok (.moved v) => some v
  | _ => none

/-- The views that the successful moves of a run answer with, in order. -/
def moves (w : Window α rows cols) (qs : List Request) : List (View α cols) :=
  (w.serveAll qs).filterMap fun t => moved? t.answer

theorem standing_buffer (g : Grid α rows cols) (s : Schedule α) (length : Nat) (p : Option Nat) :
    (standing g s length p).buffer = g.asOf s p := by
  cases p with
  | none => rfl
  | some c => exact g.correctAll_through s c

theorem moved?_or_view (hp : ∀ c ∈ p, Admits rows length c) (q : Request) :
    (moved? ((standing g s length p).serve q).answer).or (p.map (shown g s length)) =
      (nextCursor rows length p q).map (shown g s length) := by
  have hmove (row : Nat) :
      (moved? ((landing rows length p row).map (.moved ∘ shown g s length))).or
          (p.map (shown g s length)) =
        (nextCursor rows length p (.advanceTo row)).map (shown g s length) := by
    simp only [nextCursor, goal]
    cases landing rows length p row with
    | error e => rfl
    | ok r => rfl
  rw [answer_standing hp]
  cases q with
  | advanceTo row => exact hmove row
  | advance => exact hmove (ahead length p)
  | view => rfl
  | snapshot => rfl
  | shape => rfl

theorem getLast?_moves (hp : ∀ c ∈ p, Admits rows length c) (qs : List Request) :
    ((standing g s length p).moves qs).getLast?.or (p.map (shown g s length)) =
      (cursorAfter rows length p qs).map (shown g s length) := by
  induction qs generalizing p with
  | nil => rfl
  | cons q qs ih =>
    have hsplit : (standing g s length p).moves (q :: qs) =
        (moved? ((standing g s length p).serve q).answer).toList ++
          (standing g s length (nextCursor rows length p q)).moves qs := by
      rw [← serve_standing hp]
      simp only [moves, serveAll, List.filterMap_cons]
      cases moved? ((standing g s length p).serve q).answer <;> rfl
    have hhead (o : Option (View α cols)) : o.toList.getLast? = o := by
      cases o <;> rfl
    rw [hsplit, List.getLast?_append, hhead, Option.or_assoc, moved?_or_view hp]
    exact ih (nextCursor_admits hp q)

theorem shown_shows {c : Nat} (h : Admits rows length c) :
    (g.asOf s (some c)).Shows (c + 1 - length) c (shown g s length c) := by
  rw [shown, viewAt, standing_buffer, standing_length]
  apply Grid.shows_rowsFrom _ _ h.2
  have := h.1
  omega

/-- After any run the buffer is the one known at the cursor, and the window shows its last rows;
what led to the cursor makes no difference. -/
theorem point_in_time (h : make g s length = .ok w) (qs : List Request) :
    (w.after qs).buffer = g.asOf s (w.after qs).cursor ∧
    ((Desk.ofWindow (w.after qs)).serve (.intoData 0)).answer =
      .ok (.data (g.asOf s (w.after qs).cursor)) ∧
    (∀ q ∈ [Request.view, .snapshot],
      ((w.after qs).serve q).answer = .ok (.current (w.moves qs).getLast?)) ∧
    ((w.after qs).cursor = none ↔ w.moves qs = []) ∧
    (∀ c, (w.after qs).cursor = some c → ∃ v, (w.moves qs).getLast? = some v ∧
      length ≤ c + 1 ∧ (g.asOf s (some c)).Shows (c + 1 - length) c v) ∧
    ∀ qs', (w.after qs').cursor = (w.after qs).cursor → w.after qs' = w.after qs := by
  obtain ⟨rfl, -, -, -⟩ := make_eq_ok h
  have hnone : ∀ c ∈ (none : Option Nat), Admits rows length c := fun c hc => by cases hc
  have hafter (qs : List Request) := after_standing (g := g) (s := s) hnone qs
  have hlast : ((standing g s length none).moves qs).getLast? =
      (cursorAfter rows length none qs).map (shown g s length) := by
    simpa using getLast?_moves (g := g) (s := s) hnone qs
  rw [hafter qs, standing_cursor, hlast]
  have hbuffer := standing_buffer g s length (cursorAfter rows length none qs)
  refine ⟨hbuffer, ?_, ?_, ?_, ?_, ?_⟩
  · rw [← hbuffer]
    rfl
  · intro q hq
    rw [answer_standing (cursorAfter_admits hnone qs)]
    simp only [List.mem_cons, List.not_mem_nil, or_false] at hq
    rcases hq with rfl | rfl <;> rfl
  · rw [← List.getLast?_eq_none_iff, hlast, Option.map_eq_none_iff]
  · intro c hc
    have ha := cursorAfter_admits hnone qs c hc
    rw [hc]
    exact ⟨shown g s length c, rfl, ha.1, shown_shows ha⟩
  · intro qs' hc
    rw [hafter qs', standing_cursor] at hc
    rw [hafter qs', hc]

theorem point_in_time_overlap :
    let g : Grid Int 3 1 := #v[#v[1], #v[2], #v[3]]
    let s : Schedule Int :=
      ⟨[(0, []), (1, [⟨⟨0, 1, 0, 0⟩, .overwrite 10⟩, ⟨⟨1, 1, 0, 0⟩, .overwrite 20⟩]),
        (2, [⟨⟨0, 2, 0, 0⟩, .multiply 2⟩, ⟨⟨1, 2, 0, 0⟩, .overwrite 30⟩])], by decide⟩
    let w : Window Int 3 1 := standing g s 2 none
    let qs : List Request := [.advance, .advanceTo 0, .advanceTo 1, .advanceTo 7]
    make g s 2 = .ok w ∧ (w.after qs).cursor = some 1 ∧
      (w.after qs).buffer = #v[#v[10], #v[20], #v[3]] := by
  intro g s w qs
  have hw : make g s 2 = .ok w := rfl
  refine ⟨hw, rfl, ?_⟩
  rw [(point_in_time hw qs).1]
  rfl

end Window

end AsOf
