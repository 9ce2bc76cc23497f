import AsOf.Proofs.Window.Standing

namespace AsOf

namespace Window

variable {α : Type} [Cell α] {rows cols : Nat}
variable {g : Grid α rows cols} {s : Schedule α} {length row : Nat} {p : Option Nat}
variable {w : Window α rows cols} {e : WindowFault}

theorem admits_iff : Admits rows length row ↔ length - 1 ≤ row ∧ row < rows := by
  unfold Admits
  omega

theorem landing_cases (rows length : Nat) (p : Option Nat) (row : Nat) :
    (∃ c ∈ p, row < c ∧ landing rows length p row = .error (.rewind row c)) ∨
    ((∀ c ∈ p, c ≤ row) ∧ Admits rows length row ∧ landing rows length p row = .ok row) ∨
    ((∀ c ∈ p, c ≤ row) ∧ ¬Admits rows length row ∧
      landing rows length p row = .error (.outOfBounds row rows length)) := by
  cases p with
  | none =>
    have hp : ∀ c ∈ (none : Option Nat), c ≤ row := fun c hc => by cases hc
    by_cases ha : Admits rows length row
    · exact .inr (.inl ⟨hp, ha, if_pos ha⟩)
    · exact .inr (.inr ⟨hp, ha, if_neg ha⟩)
  | some c =>
    by_cases hlt : row < c
    · exact .inl ⟨c, rfl, hlt, if_pos hlt⟩
    · have hp : ∀ d ∈ some c, d ≤ row := by
        intro d hd
        cases hd
        exact Nat.not_lt.mp hlt
      by_cases ha : Admits rows length row
      · exact .inr (.inl ⟨hp, ha, (if_neg hlt).trans (if_pos ha)⟩)
      · exact .inr (.inr ⟨hp, ha, (if_neg hlt).trans (if_neg ha)⟩)

theorem landing_isOk_iff : (∃ c, landing rows length p row = .ok c) ↔
    (∀ c ∈ p, c ≤ row) ∧ length - 1 ≤ row ∧ row < rows := by
  rw [← admits_iff]
  rcases landing_cases rows length p row with ⟨c, hc, hlt, hl⟩ | ⟨hp, ha, hl⟩ | ⟨hp, ha, hl⟩
  · rw [hl]
    refine iff_of_false (fun ⟨d, hd⟩ => by cases hd) fun h => ?_
    exact Nat.not_le.mpr hlt (h.1 c hc)
  · exact iff_of_true ⟨row, hl⟩ ⟨hp, ha⟩
  · rw [hl]
    exact iff_of_false (fun ⟨d, hd⟩ => by cases hd) fun h => ha h.2

theorem landing_eq_error_iff : landing rows length p row = .error e ↔
    (∃ c ∈ p, row < c ∧ e = .rewind row c) ∨
      (∀ c ∈ p, c ≤ row) ∧ ¬(length - 1 ≤ row ∧ row < rows) ∧
        e = .outOfBounds row rows length := by
  rw [← admits_iff]
  rcases landing_cases rows length p row with ⟨c, hc, hlt, hl⟩ | ⟨hp, ha, hl⟩ | ⟨hp, ha, hl⟩
  · rw [hl]
    constructor
    · intro he
      cases he
      exact .inl ⟨c, hc, hlt, rfl⟩
    · rintro (⟨d, hd, -, rfl⟩ | ⟨hp, -, -⟩)
      · rw [Option.mem_unique hd hc]
      · exact absurd (hp c hc) (Nat.not_le.mpr hlt)
  · rw [hl]
    refine iff_of_false (fun he => by cases he) ?_
    rintro (⟨d, hd, hlt, -⟩ | ⟨-, hno, -⟩)
    · exact Nat.not_le.mpr hlt (hp d hd)
    · exact hno ha
  · rw [hl]
    constructor
    · intro he
      cases he
      exact .inr ⟨hp, ha, rfl⟩
    · rintro (⟨d, hd, hlt, -⟩ | ⟨-, -, rfl⟩)
      · exact absurd (hp d hd) (Nat.not_le.mpr hlt)
      · rfl

theorem answer_advanceTo (hp : ∀ c ∈ p, Admits rows length c) (row : Nat) :
    ((standing g s length p).advanceTo row).answer =
      (landing rows length p row).map (shown g s length) := by
  rw [advanceTo_standing hp]
  cases landing rows length p row <;> rfl

/-- A request is idle at a cursor if it is refused there or asks for no other row. -/
def Idle (w : Window α rows cols) (q : Request) : Prop :=
  (∃ e, (w.serve q).answer = .error e) ∨ ∃ c ∈ w.cursor, q = .advanceTo c

theorem advanceTo_idle (hp : ∀ c ∈ p, Admits rows length c)
    (h : (∃ e, landing rows length p row = .error e) ∨ row ∈ p) :
    ((standing g s length p).advanceTo row).window = standing g s length p ∧
      ((standing g s length p).advanceTo row).events = [] := by
  rw [advanceTo_standing hp]
  rcases h with ⟨e, he⟩ | hrow
  · rw [he]
    exact ⟨rfl, rfl⟩
  · obtain rfl := Option.mem_def.mp hrow
    have hstay : landing rows length (some row) row = .ok row :=
      (if_neg (Nat.lt_irrefl row)).trans (if_pos (hp row rfl))
    rw [hstay]
    exact ⟨rfl, if_pos rfl⟩

theorem serve_idle (hp : ∀ c ∈ p, Admits rows length c) {q : Request}
    (h : (standing g s length p).Idle q) :
    ((standing g s length p).serve q).window = standing g s length p ∧
      ((standing g s length p).serve q).events = [] := by
  rw [Idle, answer_standing hp, standing_cursor] at h
  have hrefused (row : Nat)
      (he : ∃ e, (landing rows length p row).map (Reply.moved ∘ shown g s length) = .error e) :
      ∃ e, landing rows length p row = .error e := by
    obtain ⟨e, he⟩ := he
    cases hl : landing rows length p row with
    | error d => exact ⟨d, rfl⟩
    | ok c =>
      rw [hl] at he
      cases he
  cases q with
  | advanceTo row =>
    apply advanceTo_idle hp
    refine h.imp (hrefused row) ?_
    rintro ⟨c, hc, heq⟩
    cases heq
    exact hc
  | advance =>
    change ((standing g s length p).advanceTo (standing g s length p).nextRow).window = _ ∧
      ((standing g s length p).advanceTo (standing g s length p).nextRow).events = _
    rw [standing_nextRow]
    apply advanceTo_idle hp
    refine h.imp (hrefused _) ?_
    rintro ⟨c, -, heq⟩
    cases heq
  | view => exact ⟨rfl, rfl⟩
  | snapshot => exact ⟨rfl, rfl⟩
  | shape => exact ⟨rfl, rfl⟩

/-- In every state that a window can reach, a move succeeds or fails as the row says, and an idle
request might as well not have been made. -/
theorem advance_exact (h : make g s length = .ok w) (qs : List Request) :
    (∀ row, ((∃ v, ((w.after qs).advanceTo row).answer = .ok v) ↔
        (∀ c ∈ (w.after qs).cursor, c ≤ row) ∧ length - 1 ≤ row ∧ row < rows) ∧
      ∀ e, ((w.after qs).advanceTo row).answer = .error e ↔
        (∃ c ∈ (w.after qs).cursor, row < c ∧ e = .rewind row c) ∨
          (∀ c ∈ (w.after qs).cursor, c ≤ row) ∧ ¬(length - 1 ≤ row ∧ row < rows) ∧
            e = .outOfBounds row rows length) ∧
    (∀ c, (w.after qs).cursor = some c → (w.after qs).advance = (w.after qs).advanceTo (c + 1)) ∧
    ((w.after qs).cursor = none → (w.after qs).advance = (w.after qs).advanceTo (length - 1)) ∧
    ∀ q, (w.after qs).Idle q →
      ((w.after qs).serve q).window = w.after qs ∧ ((w.after qs).serve q).events = [] ∧
        ∀ rest, w.after (qs ++ q :: rest) = w.after (qs ++ rest) ∧
          (w.after qs).serveAll (q :: rest) =
            (w.after qs).serve q :: (w.after qs).serveAll rest := by
  obtain ⟨hafter, hadmits⟩ := after_make h qs
  refine ⟨fun row => ?_, ?_, ?_, ?_⟩
  · rw [hafter, standing_cursor, answer_advanceTo hadmits]
    constructor
    · rw [← landing_isOk_iff]
      cases landing rows length (cursorAfter rows length none qs) row <;> simp [Except.map]
    · intro e
      rw [← landing_eq_error_iff]
      cases landing rows length (cursorAfter rows length none qs) row <;> simp [Except.map]
  · intro c hc
    rw [hafter, standing_cursor] at hc
    rw [hafter, advance, standing_nextRow, hc]
    rfl
  · intro hc
    rw [hafter, standing_cursor] at hc
    rw [hafter, advance, standing_nextRow, hc]
    rfl
  · intro q hq
    rw [hafter] at hq
    obtain ⟨hwindow, hevents⟩ := serve_idle hadmits hq
    rw [← hafter] at hwindow hevents
    refine ⟨hwindow, hevents, fun rest => ⟨?_, ?_⟩⟩
    · simp only [after, List.foldl_append, List.foldl_cons]
      exact congrArg (fun w => List.foldl _ w rest) hwindow
    · rw [serveAll, hwindow]

theorem advance_exact_behind :
    let g : Grid Int 4 1 := #v[#v[1], #v[2], #v[3], #v[4]]
    let s : Schedule Int := ⟨[(3, [⟨⟨0, 3, 0, 0⟩, .overwrite 10⟩])], by decide⟩
    let w : Window Int 4 1 := standing g s 3 none
    make g s 3 = .ok w ∧
      ((w.after [.advance]).advanceTo 0).answer = .error (.rewind 0 2) ∧
      ((w.after [.advance]).advanceTo 18446744073709551615).answer =
        .error (.outOfBounds 18446744073709551615 4 3) ∧
      (w.after [.advance, .advanceTo 0, .advanceTo 2]) = w.after [.advance] := by
  intro g s w
  have hw : make g s 3 = .ok w := rfl
  have hmove := (advance_exact hw [.advance]).1
  have hidle := (advance_exact hw [.advance]).2.2.2
  have hrewind : ((w.after [.advance]).advanceTo 0).answer = .error (.rewind 0 2) :=
    ((hmove 0).2 _).mpr (.inl ⟨2, rfl, by decide, rfl⟩)
  refine ⟨hw, hrewind, ?_, ?_⟩
  · refine ((hmove _).2 _).mpr (.inr ⟨fun c hc => ?_, by decide, rfl⟩)
    cases hc
    decide
  · have hfirst : (w.after [.advance]).Idle (.advanceTo 0) := by
      refine .inl ⟨.rewind 0 2, ?_⟩
      rw [serve, hrewind]
      rfl
    have hsecond : (w.after [.advance]).Idle (.advanceTo 2) := .inr ⟨2, rfl, rfl⟩
    calc w.after [.advance, .advanceTo 0, .advanceTo 2]
        = w.after [.advance, .advanceTo 2] := ((hidle _ hfirst).2.2 [.advanceTo 2]).1
      _ = w.after [.advance] := ((hidle _ hsecond).2.2 []).1

end Window

end AsOf
