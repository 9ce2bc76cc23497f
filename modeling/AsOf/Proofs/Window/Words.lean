import AsOf.Proofs.Window.Construction
import AsOf.Word

namespace AsOf

namespace Word

def add? (a b : Nat) : Option Nat := if a + b < unsignedBound 64 then some (a + b) else none

def sub? (a b : Nat) : Option Nat := if b ≤ a then some (a - b) else none

theorem add?_eq_some {a b : Nat} (h : a + b < unsignedBound 64) : add? a b = some (a + b) :=
  if_pos h

theorem sub?_eq_some {a b : Nat} (h : b ≤ a) : sub? a b = some (a - b) := if_pos h

end Word

theorem Schedule.mem_corrections_restrict {α : Type} {s : Schedule α} {p : Nat → Bool}
    {c : Correction α}
    (hc : c ∈ (s.restrict p).corrections) : c ∈ s.corrections := by
  obtain ⟨b, hb, hc⟩ := List.mem_flatMap.mp hc
  exact List.mem_flatMap.mpr ⟨b, (List.mem_filter.mp hb).1, hc⟩

namespace Grid

variable {α : Type} {rows cols : Nat}

/-- The rows from `first` to `last`, unless some of them are outside the buffer. -/
def slice? (g : Grid α rows cols) (first last : Nat) : Option (View α cols) :=
  if first ≤ last ∧ last < rows then some (g.rowsFrom first (last + 1 - first)) else none

theorem slice?_of_admits (g : Grid α rows cols) {length c : Nat} (hpos : 0 < length)
    (h : Window.Admits rows length c) :
    g.slice? (c + 1 - length) c = some (g.rowsFrom (c + 1 - length) length) := by
  obtain ⟨hle, hlt⟩ := h
  have hcount : c + 1 - (c + 1 - length) = length := by omega
  rw [slice?, if_pos ⟨by omega, hlt⟩, hcount]

variable [Cell α]

def correct? (g : Grid α rows cols) (c : Correction α) : Option (Grid α rows cols) :=
  if c.rect.Fits rows cols then some (g.correct c) else none

theorem foldlM_correct? (g : Grid α rows cols) {cs : List (Correction α)}
    (h : ∀ c ∈ cs, c.rect.Fits rows cols) : cs.foldlM correct? g = some (g.correctAll cs) := by
  induction cs generalizing g with
  | nil => rfl
  | cons c cs ih =>
    obtain ⟨hc, hcs⟩ := List.forall_mem_cons.mp h
    rw [List.foldlM_cons, correct?, if_pos hc]
    exact ih (g.correct c) hcs

end Grid

namespace Window

variable {α : Type} {rows cols : Nat}

/-- What keeps a window in its words and in its buffer. -/
structure Sound (w : Window α rows cols) (first : Nat) : Prop where
  length_pos : 0 < w.length
  fits : ∀ c ∈ w.pending.corrections, c.rect.Fits rows cols
  placed : ∀ c ∈ w.cursor, Admits rows w.length c ∧ first = c + 1 - w.length

def nextRow? (w : Window α rows cols) : Option Nat :=
  match w.cursor with
  | some cursor => Word.add? cursor 1
  | none => Word.sub? w.length 1

/-- The rows shown by the window are cut out anew each time. -/
def view? (w : Window α rows cols) (first : Nat) : Option (Option (View α cols)) :=
  match w.cursor with
  | some cursor => (w.buffer.slice? first cursor).map some
  | none => some none

section

variable {w : Window α rows cols} {first : Nat}

theorem Sound.slice? (h : w.Sound first) {c : Nat} (hc : w.cursor = some c) :
    w.buffer.slice? first c = some (w.viewAt c) := by
  obtain ⟨hadmits, hfirst⟩ := h.placed c hc
  rw [hfirst]
  exact Grid.slice?_of_admits w.buffer h.length_pos hadmits

theorem Sound.nextRow? (h : w.Sound first) (hrows : rows < unsignedBound 64) :
    w.nextRow? = some w.nextRow := by
  unfold Window.nextRow? nextRow
  cases hc : w.cursor with
  | none => exact Word.sub?_eq_some h.length_pos
  | some c =>
    have hlt : c < rows := (h.placed c hc).1.2
    exact Word.add?_eq_some (Nat.lt_of_le_of_lt hlt hrows)

theorem Sound.view? (h : w.Sound first) : w.view? first = some w.view := by
  unfold Window.view? view
  cases hc : w.cursor with
  | none => rfl
  | some c =>
    simp only [h.slice? hc]
    rfl

end

variable [Cell α]

def applyThrough? (w : Window α rows cols) (row : Nat) : Option (Window α rows cols) := do
  let next ← Word.add? row 1
  let due := w.pending.restrict (· < next)
  let buffer ← due.corrections.foldlM Grid.correct? w.buffer
  return { w with
    buffer := buffer
    pending := w.pending.restrict (next ≤ ·)
    applied := w.applied ++ due.rows }

/-- A turn that has been calculated in words. Beside the window it keeps the first row of the view,
as it was calculated for the last move. -/
abbrev Step (α : Type) (rows cols : Nat) (β : Type) := Nat × Turn α rows cols β

def moveTo? (w : Window α rows cols) (first row : Nat) : Option (Step α rows cols (View α cols)) :=
  let refused : Turn α rows cols (View α cols) :=
    ⟨w, .error (.outOfBounds row rows w.length), []⟩
  if rows ≤ row then some (first, refused)
  else do
    let next ← Word.add? row 1
    if next < w.length then some (first, refused)
    else do
      let moved ← w.applyThrough? row
      let first ← Word.sub? (← Word.add? row 1) w.length
      let view ← moved.buffer.slice? first row
      return (first, ⟨{ moved with cursor := some row }, .ok view, w.appliedEvents row⟩)

def advanceTo? (w : Window α rows cols) (first row : Nat) :
    Option (Step α rows cols (View α cols)) :=
  match w.cursor with
  | some cursor =>
    if row < cursor then some (first, ⟨w, .error (.rewind row cursor), []⟩)
    else if row = cursor then do
      let view ← w.buffer.slice? first cursor
      return (first, ⟨w, .ok view, []⟩)
    else w.moveTo? first row
  | none => w.moveTo? first row

def advance? (w : Window α rows cols) (first : Nat) : Option (Step α rows cols (View α cols)) := do
  w.advanceTo? first (← w.nextRow?)

def serve? (w : Window α rows cols) (first : Nat) :
    Request → Option (Step α rows cols (Reply α cols))
  | .advanceTo row => do
    let (first, t) ← w.advanceTo? first row
    return (first, ⟨t.window, t.answer.map .moved, t.events⟩)
  | .advance => do
    let (first, t) ← w.advance? first
    return (first, ⟨t.window, t.answer.map .moved, t.events⟩)
  | .view | .snapshot => do
    let view ← w.view? first
    return (first, ⟨w, .ok (.current view), []⟩)
  | .shape => some (first, ⟨w, .ok (.shape w.length cols), []⟩)

/-- The turns of a run, if every one of them can be taken in words. -/
def serveAll? (w : Window α rows cols) (first : Nat) :
    List Request → Option (List (Turn α rows cols (Reply α cols)))
  | [] => some []
  | q :: rest => do
    let (first, t) ← w.serve? first q
    return t :: (← t.window.serveAll? first rest)

/-- A step in words takes the same turn as the one without, and keeps the window sound. -/
def Agrees {β : Type} (step : Option (Step α rows cols β)) (t : Turn α rows cols β) : Prop :=
  ∃ first, step = some (first, t) ∧ t.window.Sound first

variable {w : Window α rows cols} {first row : Nat}

theorem Sound.applyThrough? (h : w.Sound first) (hrow : row + 1 < unsignedBound 64) :
    w.applyThrough? row = some (w.applyThrough row) := by
  have hdue : w.pending.restrict (· < row + 1) = w.pending.through row := by
    simp only [Schedule.through, Nat.lt_succ_iff]
  have hfits : ∀ c ∈ (w.pending.through row).corrections, c.rect.Fits rows cols :=
    fun c hc => h.fits c (Schedule.mem_corrections_restrict hc)
  have hcorrect := w.buffer.foldlM_correct? hfits
  simp only [Window.applyThrough?, Word.add?_eq_some hrow, Option.bind_eq_bind, Option.bind_some,
    hdue, hcorrect]
  rfl

theorem Sound.moveTo? (h : w.Sound first) (hrows : rows < unsignedBound 64) (row : Nat) :
    Agrees (w.moveTo? first row) (w.moveTo row) := by
  unfold Window.moveTo? moveTo
  by_cases hbeyond : rows ≤ row
  · rw [if_pos hbeyond, if_pos (.inl hbeyond)]
    exact ⟨first, rfl, h⟩
  have hlt : row < rows := Nat.not_le.mp hbeyond
  have hrow : row + 1 < unsignedBound 64 := Nat.lt_of_le_of_lt hlt hrows
  rw [if_neg hbeyond, Word.add?_eq_some hrow]
  by_cases hshort : row + 1 < w.length
  · rw [if_pos (.inr hshort)]
    exact ⟨first, if_pos hshort, h⟩
  have hle : w.length ≤ row + 1 := Nat.not_lt.mp hshort
  have hadmits : Admits rows w.length row := ⟨hle, hlt⟩
  rw [if_neg (not_or.mpr ⟨hbeyond, hshort⟩)]
  refine ⟨row + 1 - w.length, ?_, h.length_pos, fun c hc => ?_, fun c hc => ?_⟩
  · have hslice := Grid.slice?_of_admits (w.applyThrough row).buffer h.length_pos hadmits
    simp only [Option.bind_eq_bind, Option.bind_some, if_neg hshort, h.applyThrough? hrow,
      Word.sub?_eq_some hle, hslice]
    rfl
  · exact h.fits c (Schedule.mem_corrections_restrict hc)
  · cases hc
    exact ⟨hadmits, rfl⟩

theorem Sound.advanceTo? (h : w.Sound first) (hrows : rows < unsignedBound 64) (row : Nat) :
    Agrees (w.advanceTo? first row) (w.advanceTo row) := by
  unfold Window.advanceTo? advanceTo
  cases hc : w.cursor with
  | none => exact h.moveTo? hrows row
  | some c =>
    by_cases hlt : row < c
    · simp only [if_pos hlt]
      exact ⟨first, rfl, h⟩
    · simp only [if_neg hlt]
      by_cases he : row = c
      · simp only [if_pos he, h.slice? hc]
        exact ⟨first, rfl, h⟩
      · simp only [if_neg he]
        exact h.moveTo? hrows row

theorem Sound.advance? (h : w.Sound first) (hrows : rows < unsignedBound 64) :
    Agrees (w.advance? first) w.advance := by
  rw [Window.advance?, h.nextRow? hrows]
  exact h.advanceTo? hrows w.nextRow

/-- The step law: every request can be answered in words. -/
theorem Sound.serve? (h : w.Sound first) (hrows : rows < unsignedBound 64) (q : Request) :
    Agrees (w.serve? first q) (w.serve q) := by
  cases q with
  | advanceTo row =>
    obtain ⟨next, hstep, hsound⟩ := h.advanceTo? hrows row
    rw [Window.serve?, hstep]
    exact ⟨next, rfl, hsound⟩
  | advance =>
    obtain ⟨next, hstep, hsound⟩ := h.advance? hrows
    rw [Window.serve?, hstep]
    exact ⟨next, rfl, hsound⟩
  | view =>
    rw [Window.serve?, h.view?]
    exact ⟨first, rfl, h⟩
  | snapshot =>
    rw [Window.serve?, h.view?]
    exact ⟨first, rfl, h⟩
  | shape => exact ⟨first, rfl, h⟩

/-- The run law: whatever a sound window is asked, it answers in words as it does without them. -/
theorem Sound.serveAll? (h : w.Sound first) (hrows : rows < unsignedBound 64)
    (qs : List Request) : w.serveAll? first qs = some (w.serveAll qs) := by
  induction qs generalizing w first with
  | nil => rfl
  | cons q qs ih =>
    obtain ⟨next, hstep, hsound⟩ := h.serve? hrows q
    rw [Window.serveAll?, hstep]
    simp only [Option.bind_eq_bind, Option.bind_some, ih hsound]
    rfl

variable {g : Grid α rows cols} {s : Schedule α} {length : Nat}

theorem sound_of_make (hw : make g s length = .ok w) (first : Nat) : w.Sound first := by
  obtain ⟨rfl, hpos, -, hfits⟩ := make_eq_ok hw
  exact ⟨hpos, Schedule.fits_of_misfit?_eq_none hfits, fun c hc => by cases hc⟩

/-- A window is to be had exactly over a schedule that fits, at a length that the buffer has rows
for; a length is refused before the schedule, and the schedule for the first correction that does
not fit. No request to a window that is to be had, for whatever row, takes a sum out of its words or
a slice out of the buffer. -/
theorem checks_suffice (hrows : rows < unsignedBound 64) (g : Grid α rows cols) (s : Schedule α)
    (length : Nat) :
    ((∃ w, make g s length = .ok w) ↔
      (1 ≤ length ∧ length ≤ rows) ∧ ∀ e ∈ s.entries, Anchored rows cols e) ∧
    (∀ f, make g s length = .error f ↔
      (length = 0 ∧ f = .noLength) ∨ (rows < length ∧ f = .tooLong length rows) ∨
        (1 ≤ length ∧ length ≤ rows) ∧ ∃ before k c after,
          s.entries = before ++ (k, c) :: after ∧ (∀ e ∈ before, Anchored rows cols e) ∧
            ¬Anchored rows cols (k, c) ∧
              f = .misfit k c.rect.lastRow c.rect.lastCol rows cols) ∧
    ∀ w first, make g s length = .ok w →
      ∀ qs, w.serveAll? first qs = some (w.serveAll qs) :=
  ⟨make_isOk_iff, fun _ => make_eq_error_iff,
    fun _ first hw qs => (sound_of_make hw first).serveAll? hrows qs⟩

theorem checks_suffice_greatest_row :
    let g : Grid Int 2 1 := #v[#v[1], #v[2]]
    let s : Schedule Int := ⟨[(1, [⟨⟨0, 1, 0, 0⟩, .overwrite 10⟩]), (9, [])], by decide⟩
    let w : Window Int 2 1 := standing g s 2 none
    let qs : List Request :=
      [.view, .advanceTo 18446744073709551615, .advanceTo 0, .advance, .advanceTo 1, .advance]
    2 < unsignedBound 64 ∧ make g s 2 = .ok w ∧ w.serveAll? 0 qs = some (w.serveAll qs) := by
  intro g s w qs
  have hrows : 2 < unsignedBound 64 := by decide
  have hw : make g s 2 = .ok w := rfl
  exact ⟨hrows, hw, (checks_suffice hrows g s 2).2.2 w 0 hw qs⟩

end Window

end AsOf
