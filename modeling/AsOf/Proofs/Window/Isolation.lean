import AsOf.Panel
import AsOf.Proofs.Window.Construction

namespace AsOf

variable {α : Type} {rows cols : Nat}
variable {g : Grid α rows cols} {s : Schedule α} {p : Panel α rows cols} {length : Nat}

theorem Panel.make_eq_ok (h : Panel.make g s = .ok p) :
    p = ⟨g, s⟩ ∧ ∀ e ∈ s.entries, Anchored rows cols e := by
  rw [← Schedule.misfit?_eq_none_iff]
  unfold Panel.make checkSchedule at h
  by_cases hrows : rows = 0
  · rw [if_pos hrows] at h
    cases h
  · rw [if_neg hrows] at h
    cases hm : s.misfit? rows cols with
    | some e =>
      rw [hm] at h
      cases h
    | none =>
      rw [hm] at h
      cases h
      exact ⟨rfl, rfl⟩

namespace Desk

def Request.opens? : Request → Option Nat
  | .traverse length | .intoWindow length => some length
  | _ => none

def Request.asks? (i : Nat) : Request → Option Window.Request
  | .ask j q => if j = i then some q else none
  | _ => none

def asked (i : Nat) (rs : List Request) : List Window.Request := rs.filterMap (·.asks? i)

variable {d : Desk α rows cols} {r : Request} {rs : List Request} {i : Nat} {w : Window α rows cols}

theorem lt_size_of_window? (h : d.window? i = some w) : i < d.windows.size := by
  unfold window? at h
  obtain ⟨hi, -⟩ := Array.getElem?_eq_some_iff.mp (Option.join_eq_some_iff.mp h)
  exact hi

theorem window?_place_of_some (h : d.window? i = some w)
    (opened : Except WindowFault (Window α rows cols)) :
    (d.place opened).desk.window? i = some w := by
  cases opened with
  | error f => exact h
  | ok v =>
    have hne : i ≠ d.windows.size := Nat.ne_of_lt (lt_size_of_window? h)
    unfold window? at h ⊢
    rwa [place, Array.getElem?_push, if_neg hne]

theorem window?_setIfInBounds (h : d.window? i = some w) (j : Nat)
    (o : Option (Window α rows cols)) :
    ({ d with windows := d.windows.setIfInBounds j o } : Desk α rows cols).window? i =
      if j = i then o else some w := by
  have hi := lt_size_of_window? h
  unfold window? at h ⊢
  rw [Array.getElem?_setIfInBounds]
  by_cases hj : j = i
  · subst hj
    simp [hi]
  · simp [hj, h]

theorem panel_place (opened : Except WindowFault (Window α rows cols)) :
    (d.place opened).desk.panel = d.panel := by
  cases opened <;> rfl

variable [Cell α]

def after (d : Desk α rows cols) (rs : List Request) : Desk α rows cols :=
  rs.foldl (fun d r => (d.serve r).desk) d

/-- The answer of a window as it is passed on, with what was logged. -/
def passedOn (t : Window.Turn α rows cols (Window.Reply α cols)) :
    Except Fault (Reply α rows cols) × List Event :=
  ((t.answer.map .answered).mapError .window, t.events)

/-- What is answered, in the course of a run, to the requests to the window of some number. -/
def heard (i : Nat) (d : Desk α rows cols) :
    List Request → List (Except Fault (Reply α rows cols) × List Event)
  | [] => []
  | r :: rest =>
    let t := d.serve r
    match r.asks? i with
    | some _ => (t.answer, t.events) :: heard i t.desk rest
    | none => heard i t.desk rest

/-- The step law: only what a window is asked itself, or that its buffer is given away, makes a
difference to it. -/
theorem window?_serve (h : d.window? i = some w) (hr : r ≠ .intoData i) :
    (d.serve r).desk.window? i = some (w.after (r.asks? i).toList) := by
  cases r with
  | info =>
    show (d.serve .info).desk.window? i = some w
    cases hp : d.panel with
    | none => simpa only [serve, hp] using h
    | some p => simpa only [serve, hp] using h
  | traverse length =>
    show (d.serve (.traverse length)).desk.window? i = some w
    cases hp : d.panel with
    | none => simpa only [serve, hp] using h
    | some p => simpa only [serve, hp] using window?_place_of_some h (p.traverse length)
  | intoWindow length =>
    show (d.serve (.intoWindow length)).desk.window? i = some w
    cases hp : d.panel with
    | none => simpa only [serve, hp] using h
    | some p =>
      have hd : ({ d with panel := none } : Desk α rows cols).window? i = some w := h
      simpa only [serve, hp] using window?_place_of_some hd (p.traverse length)
  | ask j q =>
    by_cases hj : j = i
    · subst hj
      simp only [serve, h, window?_setIfInBounds h, Request.asks?, if_true]
      rfl
    · have hasks : (Request.ask j q).asks? i = none := if_neg hj
      rw [hasks]
      show (d.serve (.ask j q)).desk.window? i = some w
      cases hv : d.window? j with
      | none => simpa only [serve, hv] using h
      | some v => simp only [serve, hv, window?_setIfInBounds h, if_neg hj]
  | intoData j =>
    show (d.serve (.intoData j)).desk.window? i = some w
    have hj : ¬j = i := fun he => hr (he ▸ rfl)
    cases hv : d.window? j with
    | none => simpa only [serve, hv] using h
    | some v => simp only [serve, hv, window?_setIfInBounds h, if_neg hj]

theorem serve_ask (h : d.window? i = some w) (q : Window.Request) :
    ((d.serve (.ask i q)).answer, (d.serve (.ask i q)).events) = passedOn (w.serve q) := by
  simp only [serve, h, passedOn]

/-- The run law: after any run a window is as if it had only been asked what it was asked itself. -/
theorem window?_after (h : d.window? i = some w) (hrs : .intoData i ∉ rs) :
    (d.after rs).window? i = some (w.after (asked i rs)) := by
  induction rs generalizing d w with
  | nil => exact h
  | cons r rs ih =>
    obtain ⟨hr, hrs⟩ := not_or.mp (mt List.mem_cons.mpr hrs)
    have hrest := ih (window?_serve h (Ne.symm hr)) hrs
    have hasked : asked i (r :: rs) = (r.asks? i).toList ++ asked i rs := by
      unfold asked
      rw [List.filterMap_cons]
      cases r.asks? i <;> rfl
    rw [hasked, Window.after, List.foldl_append]
    exact hrest

/-- In any run a window answers what it would answer to the requests to itself alone. -/
theorem heard_eq (h : d.window? i = some w) (hrs : .intoData i ∉ rs) :
    heard i d rs = (w.serveAll (asked i rs)).map passedOn := by
  induction rs generalizing d w with
  | nil => rfl
  | cons r rs ih =>
    obtain ⟨hr, hrs⟩ := not_or.mp (mt List.mem_cons.mpr hrs)
    have hrest := ih (window?_serve h (Ne.symm hr)) hrs
    unfold asked at hrest ⊢
    rw [heard, List.filterMap_cons]
    cases hq : r.asks? i with
    | none =>
      rw [hq] at hrest
      exact hrest
    | some q =>
      have hask : r = .ask i q := by
        cases r with
        | ask j q' =>
          simp only [Request.asks?, Option.ite_none_right_eq_some, Option.some.injEq] at hq
          rw [hq.1, hq.2]
        | _ => cases hq
      rw [hq] at hrest
      subst hask
      simp only [hrest, serve_ask h, Window.serveAll, List.map_cons]
      rfl

theorem panel_serve (hr : ∀ length, r ≠ .intoWindow length) :
    (d.serve r).desk.panel = d.panel := by
  cases r with
  | info => cases hp : d.panel <;> simp only [serve, hp]
  | traverse length => cases hp : d.panel <;> simp only [serve, hp, panel_place]
  | intoWindow length => exact absurd rfl (hr length)
  | ask j q => cases hv : d.window? j <;> simp only [serve, hv]
  | intoData j => cases hv : d.window? j <;> simp only [serve, hv]

theorem panel_serve_intoWindow : (d.serve (.intoWindow length)).desk.panel = none := by
  cases hp : d.panel <;> simp only [serve, hp, panel_place]

theorem panel_after (hrs : ∀ length, .intoWindow length ∉ rs) : (d.after rs).panel = d.panel := by
  induction rs generalizing d with
  | nil => rfl
  | cons r rs ih =>
    have hr (length : Nat) : r ≠ .intoWindow length := fun he => hrs length (he ▸ .head _)
    have hrest := ih (d := (d.serve r).desk) fun length hmem => hrs length (.tail _ hmem)
    rw [panel_serve hr] at hrest
    exact hrest

theorem panel_after_of_mem (hrs : .intoWindow length ∈ rs) : (d.after rs).panel = none := by
  have hgone (d : Desk α rows cols) (rs : List Request) (hd : d.panel = none) :
      (d.after rs).panel = none := by
    induction rs generalizing d with
    | nil => exact hd
    | cons r rs ih =>
      refine ih (d.serve r).desk ?_
      by_cases hr : ∃ length, r = .intoWindow length
      · obtain ⟨length, rfl⟩ := hr
        exact panel_serve_intoWindow
      · rw [panel_serve (fun length he => hr ⟨length, he⟩), hd]
  induction rs generalizing d with
  | nil => cases hrs
  | cons r rs ih =>
    rcases List.mem_cons.mp hrs with rfl | hrs
    · exact hgone _ rs panel_serve_intoWindow
    · exact ih hrs

theorem serve_of_opens? (hp : d.panel = some p) (hr : r.opens? = some length) :
    ∃ kept, d.serve r =
      ({ d with panel := kept } : Desk α rows cols).place
        (Window.make p.baseline p.schedule length) := by
  cases r with
  | traverse l =>
    cases hr
    refine ⟨d.panel, ?_⟩
    simp only [serve, hp, Panel.traverse]
    rw [← hp]
  | intoWindow l =>
    cases hr
    refine ⟨none, ?_⟩
    simp only [serve, hp, Panel.traverse]
  | _ => cases hr

/-- A panel is not changed by what its windows are asked until it is given away. At every length
that it has rows for it opens a window; whatever is asked of the panel and of other windows before
or after that, the window answers as one that was made of the same baseline and schedule and is
asked nothing else. -/
theorem windows_isolated (h : Panel.make g s = .ok p) (rs : List Request) :
    let d := (ofPanel p).after rs
    ((∃ length, .intoWindow length ∈ rs) → d.panel = none) ∧
    ((∀ length, .intoWindow length ∉ rs) →
      (d.serve .info).answer = .ok (.info ⟨g, s⟩) ∧
      ∀ r length, r.opens? = some length →
        ((∃ i, (d.serve r).answer = .ok (.opened i)) ↔ 1 ≤ length ∧ length ≤ rows) ∧
        (∀ f, (d.serve r).answer = .error f →
          f = .window .noLength ∨ f = .window (.tooLong length rows)) ∧
        ∀ i, (d.serve r).answer = .ok (.opened i) → ∃ w, Window.make g s length = .ok w ∧
          ∀ rs', .intoData i ∉ rs' →
            heard i (d.serve r).desk rs' = (w.serveAll (asked i rs')).map passedOn ∧
            (((d.serve r).desk.after rs').serve (.intoData i)).answer =
              .ok (.data (w.after (asked i rs')).buffer)) := by
  intro d
  refine ⟨fun ⟨length, hmem⟩ => panel_after_of_mem hmem, fun hkept => ?_⟩
  obtain ⟨rfl, hfits⟩ := Panel.make_eq_ok h
  have hpanel : d.panel = some ⟨g, s⟩ := panel_after hkept
  refine ⟨by simp only [serve, hpanel], fun r length hr => ?_⟩
  obtain ⟨kept, hserve⟩ := serve_of_opens? hpanel hr
  rw [hserve]
  have hok : (∃ w, Window.make g s length = .ok w) ↔ 1 ≤ length ∧ length ≤ rows :=
    Window.make_isOk_iff.trans (and_iff_left hfits)
  cases hmake : Window.make g s length with
  | error f =>
    refine ⟨?_, fun f' hf => ?_, fun i hi => by cases hi⟩
    · rw [← hok, hmake]
      exact iff_of_false (fun ⟨i, hi⟩ => by cases hi) (fun ⟨w, hw⟩ => by cases hw)
    · cases hf
      rcases Window.make_eq_error_iff.mp hmake with
        ⟨-, rfl⟩ | ⟨-, rfl⟩ | ⟨-, before, k, c, after, hs, -, hno, -⟩
      · exact .inl rfl
      · exact .inr rfl
      · -- The panel was checked against the same buffer.
        refine absurd (hfits (k, c) ?_) hno
        rw [hs]
        exact List.mem_append_right _ List.mem_cons_self
  | ok w =>
    refine ⟨?_, fun f hf => (by cases hf), fun i hi => ?_⟩
    · rw [← hok, hmake]
      exact iff_of_true ⟨_, rfl⟩ ⟨w, rfl⟩
    · cases hi
      have hnew : (({ d with panel := kept } : Desk α rows cols).place (.ok w)).desk.window?
          d.windows.size = some w := by
        simp only [place, window?, Array.getElem?_push_size, Option.join_some]
      refine ⟨w, rfl, fun rs' hrs' => ⟨heard_eq hnew hrs', ?_⟩⟩
      simp only [serve, window?_after hnew hrs']

theorem windows_isolated_taken_late :
    let g : Grid Int 3 1 := #v[#v[8], #v[8], #v[4]]
    let s : Schedule Int := ⟨[(1, [⟨⟨0, 1, 0, 0⟩, .overwrite 5⟩])], by decide⟩
    let d := (ofPanel ⟨g, s⟩).after [.traverse 1, .ask 0 (.advanceTo 2)]
    let d' := (d.serve (.intoWindow 2)).desk
    let w := Window.standing g s 2 none
    let rs' : List Request := [.ask 1 .view, .ask 0 .advance, .traverse 1, .ask 1 .advance]
    Panel.make g s = .ok ⟨g, s⟩ ∧ (d.serve .info).answer = .ok (.info ⟨g, s⟩) ∧
      (d.serve (.intoWindow 2)).answer = .ok (.opened 1) ∧
      heard 1 d' rs' = (w.serveAll [.view, .advance]).map passedOn ∧
      ((d'.after rs').serve (.intoData 1)).answer = .ok (.data #v[#v[5], #v[5], #v[4]]) := by
  intro g s d d' w rs'
  have hp : Panel.make g s = .ok ⟨g, s⟩ := rfl
  obtain ⟨hinfo, hopens⟩ :=
    (windows_isolated hp [.traverse 1, .ask 0 (.advanceTo 2)]).2 (by simp)
  have hopened : (d.serve (.intoWindow 2)).answer = .ok (.opened 1) := rfl
  obtain ⟨v, hv, hrun⟩ := (hopens (.intoWindow 2) 2 rfl).2.2 1 hopened
  obtain rfl : v = w := by
    cases hv
    rfl
  obtain ⟨hheard, hdata⟩ := hrun rs' (by decide)
  exact ⟨hp, hinfo, hopened, hheard, hdata⟩

end Desk

end AsOf
