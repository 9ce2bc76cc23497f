import AsOf.Proofs.Load.PriceWindow
import AsOf.Proofs.Load.Stored

namespace AsOf

namespace Grid

variable {α : Type} {rows cols : Nat} {g g' : Grid α rows cols}

theorem rowsFrom_congr {first count : Nat}
    (h : ∀ i (hi : i < rows), first ≤ i → i < first + count → g[i] = g'[i]) :
    g.rowsFrom first count = g'.rowsFrom first count := by
  apply List.ext_getElem?
  intro n
  rw [rowsFrom, rowsFrom, List.getElem?_take, List.getElem?_take]
  split
  · rename_i hn
    rw [List.getElem?_drop, List.getElem?_drop, Vector.getElem?_toList, Vector.getElem?_toList]
    by_cases hi : first + n < rows
    · rw [getElem?_pos g _ hi, getElem?_pos g' _ hi, h _ hi (by omega) (by omega)]
    · rw [getElem?_neg g _ hi, getElem?_neg g' _ hi]
  · rfl

theorem getElem_correctAll_congr [Cell α] {cs : List (Correction α)} {i : Nat} (hi : i < rows)
    (h : g[i] = g'[i]) : (g.correctAll cs)[i] = (g'.correctAll cs)[i] := by
  ext j hj
  rw [getElem_correctAll, getElem_correctAll, h]

end Grid

namespace Window

variable {α : Type} [Cell α] {rows cols : Nat} {g g' : Grid α rows cols} {s s' : Schedule α}
variable {length r c : Nat} {p : Option Nat}

def asked? (w : Window α rows cols) : Request → Option Nat
  | .advanceTo row => some row
  | .advance => some w.nextRow
  | .view | .snapshot | .shape => none

/-- A run of requests never asks for a row after `r`. -/
def AsksThrough (r : Nat) (w : Window α rows cols) : List Request → Prop
  | [] => True
  | q :: rest => (∀ row ∈ w.asked? q, row ≤ r) ∧ AsksThrough r (w.serve q).window rest

theorem standing_asked? (q : Request) : (standing g s length p).asked? q = goal length p q := by
  cases q with
  | advance => exact congrArg some standing_nextRow
  | _ => rfl

/-- A view up to a row does not depend on later rows of the baseline or on later buckets. -/
theorem shown_congr (hg : ∀ i (hi : i < rows), i ≤ r → g[i] = g'[i])
    (hs : s.through r = s'.through r) (hc : c ≤ r) (ha : Admits rows length c) :
    shown g s length c = shown g' s' length c := by
  have hthrough : s.through c = s'.through c := by
    rw [← s.through_through hc, hs, s'.through_through hc]
  have hlength := ha.1
  simp only [shown, viewAt, standing, hthrough]
  apply Grid.rowsFrom_congr
  intro i hi _ hlast
  exact Grid.getElem_correctAll_congr hi (hg i hi (by omega))

omit [Cell α] in
theorem replyAt_congr {sh sh' : Nat → View α cols}
    (hsh : ∀ c, c ≤ r → Admits rows length c → sh c = sh' c)
    (hp : ∀ c ∈ p, Admits rows length c ∧ c ≤ r) {q : Request}
    (hq : ∀ row ∈ goal length p q, row ≤ r) :
    replyAt rows length sh p q = replyAt rows length sh' p q := by
  have hmove (row : Nat) (hrow : row ≤ r) :
      (landing rows length p row).map (Reply.moved ∘ sh) =
        (landing rows length p row).map (Reply.moved ∘ sh') := by
    cases hl : landing rows length p row with
    | error e => rfl
    | ok d =>
      obtain ⟨rfl, ha, -⟩ := landing_eq_ok hl
      exact congrArg (fun v => Except.ok (Reply.moved v)) (hsh d hrow ha)
  have hview : p.map sh = p.map sh' := by
    cases p with
    | none => rfl
    | some c => exact congrArg some (hsh c (hp c rfl).2 (hp c rfl).1)
  cases q with
  | advanceTo row => exact hmove row (hq row rfl)
  | advance => exact hmove _ (hq _ rfl)
  | view => simp only [replyAt, hview]
  | snapshot => simp only [replyAt, hview]
  | shape => rfl

theorem nextCursor_le (hp : ∀ c ∈ p, c ≤ r) {q : Request}
    (hq : ∀ row ∈ goal length p q, row ≤ r) : ∀ c ∈ nextCursor rows length p q, c ≤ r := by
  intro c hc
  unfold nextCursor at hc
  cases hgoal : goal length p q with
  | none =>
    rw [hgoal] at hc
    exact hp c hc
  | some row =>
    rw [hgoal] at hc
    cases hl : landing rows length p row with
    | error e =>
      simp only [hl] at hc
      exact hp c hc
    | ok d =>
      simp only [hl] at hc
      cases hc
      obtain ⟨rfl, -, -⟩ := landing_eq_ok hl
      exact hq c hgoal

/-- The run law for two windows: they answer alike as long as their views agree. -/
theorem answers_congr (hsh : ∀ c, c ≤ r → Admits rows length c →
      shown g s length c = shown g' s' length c)
    (hp : ∀ c ∈ p, Admits rows length c ∧ c ≤ r) {qs : List Request}
    (hqs : (standing g s length p).AsksThrough r qs) :
    ((standing g s length p).serveAll qs).map (·.answer) =
      ((standing g' s' length p).serveAll qs).map (·.answer) := by
  -- Both windows stand at one cursor throughout, since no move depends on what is shown.
  induction qs generalizing p with
  | nil => rfl
  | cons q qs ih =>
    obtain ⟨hq, hrest⟩ := hqs
    have hadmits : ∀ c ∈ p, Admits rows length c := fun c hc => (hp c hc).1
    have hgoal : ∀ row ∈ goal length p q, row ≤ r := by
      rw [← standing_asked? (g := g) (s := s)]
      exact hq
    have hnext : ∀ c ∈ nextCursor rows length p q, Admits rows length c ∧ c ≤ r :=
      fun c hc => ⟨nextCursor_admits hadmits q c hc,
        nextCursor_le (fun d hd => (hp d hd).2) hgoal c hc⟩
    have hhead : ((standing g s length p).serve q).answer =
        ((standing g' s' length p).serve q).answer := by
      rw [answer_standing hadmits, answer_standing hadmits, replyAt_congr hsh hp hgoal]
    rw [serve_standing hadmits] at hrest
    simp only [serveAll, List.map_cons, hhead, serve_standing hadmits, ih hnext hrest]

end Window

namespace Axes

variable {x : Axes} {a : Action} {k r : Nat} {records records' : Category → List Action}

theorem effective_lt_of_falls (h : x.falls k a) (hk : k ≤ r) (hr : r < x.dates.length) :
    a.effective < x.dates[r] := by
  obtain ⟨-, hrow, -, hlt⟩ := falls_iff.mp h
  have hnot : ¬x.dates[k] ≤ a.effective := by
    rw [getElem_le_iff x.increasing hlt]
    exact Nat.not_lt.mpr (Nat.le_of_eq hrow)
  exact Int.lt_of_lt_of_le (Int.not_le.mp hnot) (getElem_le_of_increasing x.increasing hk hr)

theorem expected_congr (hr : r < x.dates.length)
    (h : ∀ c, (records c).filter (·.effective < x.dates[r]) =
      (records' c).filter (·.effective < x.dates[r]))
    (value : Float → Float) (hk : k ≤ r) (kinds : List Category) :
    x.expected value k records kinds = x.expected value k records' kinds := by
  have hknown (as : List Action) : as.filter (x.falls k) =
      (as.filter (·.effective < x.dates[r])).filter (x.falls k) := by
    rw [List.filter_filter]
    apply List.filter_congr
    intro a _
    cases hf : x.falls k a with
    | false => rfl
    | true => rw [Bool.true_and, decide_eq_true (effective_lt_of_falls hf hk hr)]
  unfold expected
  congr 1
  funext c
  rw [hknown, h, ← hknown]

theorem through_filed_congr (hr : r < x.dates.length)
    (h : ∀ c, (records c).filter (·.effective < x.dates[r]) =
      (records' c).filter (·.effective < x.dates[r]))
    (value : Float → Float) (kinds : List Category) :
    (x.filed value records kinds).through r = (x.filed value records' kinds).through r := by
  apply Schedule.ext_bucket
  · intro k
    simp only [Schedule.mem_rows_through, mem_rows_filed]
    apply and_congr_left
    intro hk
    rw [expected_congr hr h value hk]
  · intro k
    rw [Schedule.bucket_through, Schedule.bucket_through, bucket_filed, bucket_filed]
    split
    · rename_i hk
      exact expected_congr hr h value hk kinds
    · rfl

end Axes

section

variable {db₁ db₂ : Database} {records₁ records₂ : Category → List Action} {m₁ m₂ : Nat}
variable {x : Axes} {f : Flags} {r length : Nat}

/-- Two databases that hold the same actions before the date of a row, and two baselines that agree
up to that row, give windows that answer alike unless a later row is asked for. The loads of the
windows succeed unless they are refused for the number of variables in a statement. -/
theorem no_look_ahead (h₁ : db₁.Holds records₁) (h₂ : db₂.Holds records₂) (hm₁ : 3 ≤ m₁)
    (hm₂ : 3 ≤ m₂) (hf : f.scope.includesPrice) (hr : r < x.dates.length) (hpos : 1 ≤ length)
    (hle : length ≤ x.numDates) (g₁ g₂ : Grid Float x.numDates x.numAssets)
    (hg : ∀ i (hi : i < x.numDates), i ≤ r → g₁[i] = g₂[i])
    (h : ∀ c, (records₁ c).filter (·.effective < x.dates[r]) =
      (records₂ c).filter (·.effective < x.dates[r])) (j₁ j₂ : Journal) :
    (db₁.Admits m₁ x f records₁ → ∃ l₁, (((db₁.source m₁).load x f).perform j₁).1 = .ok l₁) ∧
    (db₂.Admits m₂ x f records₂ → ∃ l₂, (((db₂.source m₂).load x f).perform j₂).1 = .ok l₂) ∧
    ∀ l₁ l₂, (((db₁.source m₁).load x f).perform j₁).1 = .ok l₁ →
      (((db₂.source m₂).load x f).perform j₂).1 = .ok l₂ → ∃ w₁ w₂,
        l₁.priceWindow g₁ length = .ok w₁ ∧ l₂.priceWindow g₂ length = .ok w₂ ∧
        ∀ qs, w₁.AsksThrough r qs →
          (w₁.serveAll qs).map (·.answer) = (w₂.serveAll qs).map (·.answer) := by
  refine ⟨fun hroom => ⟨_, Database.fst_load_stored h₁ (.inl hm₁) hroom j₁⟩,
    fun hroom => ⟨_, Database.fst_load_stored h₂ (.inl hm₂) hroom j₂⟩, fun l₁ l₂ hl₁ hl₂ => ?_⟩
  obtain rfl := Database.eq_stored_of_load h₁ (.inl hm₁) hl₁
  obtain rfl := Database.eq_stored_of_load h₂ (.inl hm₂) hl₂
  refine ⟨_, _, Loaded.priceWindow_schedule (if_pos hf) g₁ hpos hle,
    Loaded.priceWindow_schedule (if_pos hf) g₂ hpos hle, ?_⟩
  intro qs hqs
  have hthrough := x.through_filed_congr hr h id f.kinds
  refine Window.answers_congr (fun c hc ha => ?_) (fun c hc => by cases hc) hqs
  exact Window.shown_congr hg hthrough hc ha

theorem no_look_ahead_boundary :
    let records₁ : Category → List Action := fun
      | .split => [⟨5, 2, 20⟩, ⟨5, 0.5, 15⟩]
      | _ => []
    let records₂ : Category → List Action := fun
      | .merger => [⟨6, 3, 20⟩]
      | .split => [⟨5, 0.5, 15⟩]
      | .dividend => []
    let db₁ := Database.holding records₁
    let db₂ := Database.holding records₂
    let x : Axes := ⟨[10, 20, 30], [5, 6], by decide, by decide, by decide⟩
    let g₁ : Grid Float 3 2 := #v[#v[1, 2], #v[3, 4], #v[5, 6]]
    let g₂ : Grid Float 3 2 := #v[#v[1, 2], #v[3, 4], #v[7, 8]]
    let qs : List Window.Request := [.advanceTo 1, .view, .advanceTo 0]
    db₁.Admits 3 x (.all .price) records₁ ∧ db₂.Admits 9 x (.all .price) records₂ ∧ ∃ l₁ l₂ w₁ w₂,
      (((db₁.source 3).load x (.all .price)).perform .empty).1 = .ok l₁ ∧
      (((db₂.source 9).load x (.all .price)).perform .empty).1 = .ok l₂ ∧
      l₁.priceWindow g₁ 2 = .ok w₁ ∧ l₂.priceWindow g₂ 2 = .ok w₂ ∧
      (w₁.serveAll qs).map (·.answer) = (w₂.serveAll qs).map (·.answer) := by
  intro records₁ records₂ db₁ db₂ x g₁ g₂ qs
  have hg : ∀ i (hi : i < 3), i ≤ 1 → g₁[i] = g₂[i] := by
    intro i hi hle
    obtain rfl | rfl : i = 0 ∨ i = 1 := by omega
    · simp [g₁, g₂]
    · simp [g₁, g₂]
  have hrecords : ∀ c, (records₁ c).filter (·.effective < 20) =
      (records₂ c).filter (·.effective < 20) := by
    intro c
    cases c <;> simp [records₁, records₂]
  have hroom₁ : db₁.Admits 3 x (.all .price) records₁ :=
    Database.admits_of_le (by decide) (by decide)
  have hroom₂ : db₂.Admits 9 x (.all .price) records₂ :=
    Database.admits_of_le (by decide) (by decide)
  obtain ⟨hload₁, hload₂, halike⟩ :=
    no_look_ahead (x := x) (r := 1) (f := .all .price) (Database.holds_holding records₁)
      (Database.holds_holding records₂) (show 3 ≤ 3 by decide) (show 3 ≤ 9 by decide) rfl
      (by decide) (show 1 ≤ 2 by decide) (by decide) g₁ g₂ hg hrecords .empty .empty
  obtain ⟨l₁, hl₁⟩ := hload₁ hroom₁
  obtain ⟨l₂, hl₂⟩ := hload₂ hroom₂
  obtain ⟨w₁, w₂, hw₁, hw₂, hall⟩ := halike l₁ l₂ hl₁ hl₂
  refine ⟨hroom₁, hroom₂, l₁, l₂, w₁, w₂, hl₁, hl₂, hw₁, hw₂, hall qs ⟨?_, ?_, ?_, trivial⟩⟩
  · rintro _ ⟨⟩
    decide
  · rintro _ ⟨⟩
  · rintro _ ⟨⟩
    decide

end

end AsOf
