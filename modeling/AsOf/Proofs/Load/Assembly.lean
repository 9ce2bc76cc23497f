import AsOf.Proofs.Load.Place
import AsOf.Proofs.Store.Run

namespace AsOf

namespace Axes

variable {x : Axes} {a : Action} {as : List Action} {v : Event}

/-- What is logged of an action that is left out. -/
def dropped? (x : Axes) (a : Action) : Option Event :=
  match x.place a with
  | .beforeStart => some (.droppedBeforeStart a.sid a.effective)
  | .afterLast => some (.droppedAfterLast a.sid a.effective)
  | _ => none

theorem toList_append_filterMap_dropped? (x : Axes) (a : Action) (as : List Action) :
    (x.dropped? a).toList ++ as.filterMap x.dropped? = (a :: as).filterMap x.dropped? := by
  rw [List.filterMap_cons]
  cases x.dropped? a <;> rfl

def early (x : Axes) (as : List Action) : Nat := as.countP (·.effective < x.start)

def late (x : Axes) (as : List Action) : Nat := as.countP (x.stop ≤ ·.effective)

theorem early_append (x : Axes) (as bs : List Action) :
    x.early (as ++ bs) = x.early as + x.early bs := List.countP_append

theorem late_append (x : Axes) (as bs : List Action) :
    x.late (as ++ bs) = x.late as + x.late bs := List.countP_append

/-- The schedules of splits and other actions, as far as a scope asks for them. -/
def loaded (x : Axes) (scope : Scope) (splits others : List Action) : Loaded :=
  ⟨if scope.includesPrice then some (x.schedule id (splits ++ others)) else none,
    if scope.includesVolume then some (x.schedule (1 / ·) splits) else none⟩

def loadedEvent (x : Axes) (scope : Scope) (splits others : List Action) : Event :=
  let l := x.loaded scope splits others
  .loaded scope splits.length others.length (l.price.elim 0 (·.rows.length))
    (l.volume.elim 0 (·.rows.length)) (x.early (splits ++ others)) (x.late (splits ++ others))

end Axes

namespace Assembly

variable {s : Assembly} {x : Axes} {scope : Scope} {scalesVolume : Bool} {a : Action}
variable {as bs before after : List Action} {dates dates' : DateIndex}

/-- The assembly after some actions, with what is known of the dates by then. -/
def taking (s : Assembly) (x : Axes) (scope : Scope) (scalesVolume : Bool) (as : List Action)
    (dates : DateIndex) : Assembly where
  dates := dates
  price := if scope.includesPrice then s.price.pushAll (as.filterMap (x.entry? id)) else s.price
  volume :=
    if scope.includesVolume && scalesVolume then
      s.volume.pushAll (as.filterMap (x.entry? (1 / ·)))
    else s.volume
  beforeStart := s.beforeStart + x.early as
  afterLast := s.afterLast + x.late as

theorem taking_taking :
    (s.taking x scope scalesVolume as dates).taking x scope scalesVolume bs dates' =
      s.taking x scope scalesVolume (as ++ bs) dates' := by
  simp only [taking, Axes.early_append, Axes.late_append, List.filterMap_append,
    Schedule.pushAll_append, Nat.add_assoc]
  split <;> split <;> rfl

theorem locate_eq (h : s.dates.Knows x.dates) (a : Action) :
    ∃ dates, dates.Knows x.dates ∧
      s.locate x (.ofAssets x.assets) a = (x.place a, { s with dates := dates }) := by
  obtain ⟨hrow, hknows⟩ := h.row x.increasing a.effective
  -- Both sides ask the same questions in the same order; only the row comes from the index.
  unfold locate Axes.place Axes.row
  split
  · exact ⟨s.dates, h, rfl⟩
  · refine ⟨_, hknows, ?_⟩
    simp only [hrow, AssetIndex.column?_of_nodup x.assets_nodup]
    split
    · rfl
    · by_cases hs : a.sid ∈ x.assets
      · simp only [if_pos hs]
      · simp only [if_neg hs]

/-- The step law: an action is filed or left out, unless it strays. -/
theorem perform_add (scope : Scope) (scalesVolume : Bool) (h : s.dates.Knows x.dates)
    (a : Action) :
    ∃ dates, dates.Knows x.dates ∧ ∀ j,
      (s.add x (.ofAssets x.assets) scope scalesVolume a).perform j =
        (if x.strays a then .error (.unknownAsset a.sid)
          else .ok (s.taking x scope scalesVolume [a] dates), j.noting (x.dropped? a).toList) := by
  obtain ⟨dates, hknows, hlocate⟩ := locate_eq h a
  refine ⟨dates, hknows, fun j => ?_⟩
  rw [add, hlocate, Axes.dropped?]
  rcases x.place_cases a with ⟨hplace, hlt, hle, hno⟩ | ⟨hplace, hlt, hle, hno⟩ |
    ⟨⟨row, col, hplace⟩, hlt, hle, hno⟩ | ⟨hplace, -, -, hyes⟩
  · simp [taking, Axes.early, Axes.late, Axes.entry?, hplace, hlt, hle, hno, Schedule.pushAll]
    rfl
  · simp [taking, Axes.early, Axes.late, Axes.entry?, hplace, hlt, hle, hno, Schedule.pushAll]
    rfl
  · simp [taking, Axes.early, Axes.late, Axes.entry?, hplace, hlt, hle, hno, Schedule.pushAll,
      file]
  · simp [hplace, hyes]

theorem perform_addAll_cons (scope : Scope) (scalesVolume : Bool) (h : s.dates.Knows x.dates)
    (ha : ¬x.strays a) (as : List Action) :
    ∃ dates, dates.Knows x.dates ∧ ∀ j,
      (s.addAll x (.ofAssets x.assets) scope scalesVolume (a :: as)).perform j =
        ((s.taking x scope scalesVolume [a] dates).addAll x (.ofAssets x.assets) scope
          scalesVolume as).perform (j.noting (x.dropped? a).toList) := by
  obtain ⟨dates, hdates, hadd⟩ := perform_add scope scalesVolume h a
  refine ⟨dates, hdates, fun j => ?_⟩
  have hhead := hadd j
  rw [if_neg ha] at hhead
  rw [addAll, Run.perform_bind_ok _ hhead]

/-- The run law: actions that do not stray are taken one after the other. -/
theorem perform_addAll (scope : Scope) (scalesVolume : Bool) (h : s.dates.Knows x.dates)
    (has : ∀ a ∈ as, ¬x.strays a) :
    ∃ dates, dates.Knows x.dates ∧ ∀ j,
      (s.addAll x (.ofAssets x.assets) scope scalesVolume as).perform j =
        (.ok (s.taking x scope scalesVolume as dates), j.noting (as.filterMap x.dropped?)) := by
  induction as generalizing s with
  | nil =>
    refine ⟨s.dates, h, fun j => ?_⟩
    simp [addAll, taking, Axes.early, Axes.late, Schedule.pushAll]
  | cons a as ih =>
    obtain ⟨dates, hdates, hhead⟩ :=
      perform_addAll_cons scope scalesVolume h (has a List.mem_cons_self) as
    obtain ⟨dates', hdates', hrest⟩ := ih (s := s.taking x scope scalesVolume [a] dates) hdates
      (fun b hb => has b (List.mem_cons_of_mem _ hb))
    refine ⟨dates', hdates', fun j => ?_⟩
    rw [hhead, hrest, taking_taking, Journal.noting_noting, Axes.toList_append_filterMap_dropped?]
    rfl

theorem perform_addAll_stray (scope : Scope) (scalesVolume : Bool) (h : s.dates.Knows x.dates)
    (hbefore : ∀ b ∈ before, ¬x.strays b) (ha : x.strays a) (after : List Action) (j : Journal) :
    (s.addAll x (.ofAssets x.assets) scope scalesVolume (before ++ a :: after)).perform j =
      (.error (.unknownAsset a.sid), j.noting (before.filterMap x.dropped?)) := by
  induction before generalizing s j with
  | nil =>
    obtain ⟨dates, -, hadd⟩ := perform_add scope scalesVolume h a
    have hhead := hadd j
    have hplace : x.place a = .unknown := Axes.place_eq_unknown_iff.mpr ha
    rw [if_pos ha, Axes.dropped?, hplace] at hhead
    rw [List.nil_append, addAll, Run.perform_bind_error _ hhead]
    rfl
  | cons b before ih =>
    obtain ⟨dates, hdates, hhead⟩ :=
      perform_addAll_cons scope scalesVolume h (hbefore b List.mem_cons_self) (before ++ a :: after)
    rw [List.cons_append, hhead, ih hdates fun c hc => hbefore c (List.mem_cons_of_mem _ hc),
      Journal.noting_noting, Axes.toList_append_filterMap_dropped?]

end Assembly

namespace Source

variable {s : Source} {x : Axes} {f : Flags} {j j' : Journal} {a : Action} {e : StoreFault}
variable {fetched : List (Category × List Action)} {before after : List Action}

theorem perform_adapt_fetchAll
    (hf : (s.fetchAll x (.ofAssets x.assets) f.categories).perform j = (.ok fetched, j')) :
    Run.perform ((s.fetchAll x (.ofAssets x.assets) f.categories).adapt LoadFault.store) j =
      (.ok fetched, j') := by
  rw [Run.perform_adapt, hf]
  rfl

theorem perform_load_of_fetch_error
    (hf : (s.fetchAll x (.ofAssets x.assets) f.categories).perform j = (.error e, j')) :
    (s.load x f).perform j = (.error (.store e), j') := by
  apply Run.perform_bind_error
  rw [Run.perform_adapt, hf]
  rfl

theorem perform_load (hf : (s.fetchAll x (.ofAssets x.assets) f.categories).perform j =
      (.ok fetched, j'))
    (hno : ∀ a ∈ actionsWhere fetched true ++ actionsWhere fetched false, ¬x.strays a) :
    (s.load x f).perform j =
      (.ok (x.loaded f.scope (actionsWhere fetched true) (actionsWhere fetched false)),
        j'.noting ((actionsWhere fetched true ++ actionsWhere fetched false).filterMap x.dropped? ++
          [x.loadedEvent f.scope (actionsWhere fetched true) (actionsWhere fetched false)])) := by
  have hadapt := perform_adapt_fetchAll hf
  obtain ⟨dates, hdates, hsplits⟩ := Assembly.perform_addAll (s := .start x) f.scope true
    (DateIndex.knows_ofDates x.dates) fun a ha => hno a (List.mem_append_left _ ha)
  obtain ⟨dates', -, hothers⟩ := Assembly.perform_addAll f.scope false
    (s := Assembly.taking (.start x) x f.scope true (actionsWhere fetched true) dates) hdates
    fun a ha => hno a (List.mem_append_right _ ha)
  unfold load
  rw [Run.perform_bind_ok _ hadapt, Run.perform_bind_ok _ (hsplits _),
    Run.perform_bind_ok _ (hothers _), Run.perform_log_bind]
  simp only [Run.perform_pure, Assembly.taking, Assembly.start, Axes.loaded, Axes.loadedEvent,
    Axes.schedule, List.filterMap_append, Schedule.pushAll_append, Journal.noting_noting,
    Axes.early_append, Axes.late_append, List.append_assoc, Nat.zero_add]
  cases f.scope.includesPrice <;> cases f.scope.includesVolume <;> rfl

theorem perform_load_stray (hf : (s.fetchAll x (.ofAssets x.assets) f.categories).perform j =
      (.ok fetched, j'))
    (hfetched : actionsWhere fetched true ++ actionsWhere fetched false = before ++ a :: after)
    (hbefore : ∀ b ∈ before, ¬x.strays b) (ha : x.strays a) :
    (s.load x f).perform j =
      (.error (.unknownAsset a.sid), j'.noting (before.filterMap x.dropped?)) := by
  have hadapt := perform_adapt_fetchAll hf
  unfold load
  rw [Run.perform_bind_ok _ hadapt]
  have hstart := DateIndex.knows_ofDates x.dates
  obtain ⟨rest, hsplits⟩ | ⟨more, hmore, hothers⟩ :
      (∃ rest, actionsWhere fetched true = before ++ a :: rest) ∨
        ∃ more, before = actionsWhere fetched true ++ more ∧
          actionsWhere fetched false = more ++ a :: after := by
    rcases List.append_eq_append_iff.mp hfetched with ⟨more, hmore, hothers⟩ | ⟨rest, hrest, he⟩
    · exact .inr ⟨more, hmore, hothers⟩
    · cases rest with
      | nil => exact .inr ⟨[], by simpa using hrest.symm, he.symm⟩
      | cons b rest =>
        obtain ⟨rfl, -⟩ := List.cons.inj he
        exact .inl ⟨rest, hrest⟩
  · rw [hsplits, Run.perform_bind_error _
      (Assembly.perform_addAll_stray (s := .start x) f.scope true hstart hbefore ha rest j')]
  · subst hmore
    obtain ⟨dates, hdates, htaken⟩ := Assembly.perform_addAll (s := .start x) f.scope true hstart
      fun b hb => hbefore b (List.mem_append_left _ hb)
    rw [Run.perform_bind_ok _ (htaken j'), hothers, Run.perform_bind_error _
      (Assembly.perform_addAll_stray f.scope false
        (s := Assembly.taking (.start x) x f.scope true (actionsWhere fetched true) dates) hdates
        (fun b hb => hbefore b (List.mem_append_right _ hb)) ha after _),
      Journal.noting_noting, ← List.filterMap_append]

/-- A load that has fetched its actions finds a first one that strays, or files them all. -/
theorem perform_load_cases
    (hf : (s.fetchAll x (.ofAssets x.assets) f.categories).perform j = (.ok fetched, j')) :
    (∃ (a : Action) (before : List Action),
      (actionsWhere fetched true ++ actionsWhere fetched false).find? x.strays = some a ∧
      (s.load x f).perform j =
        (.error (.unknownAsset a.sid), j'.noting (before.filterMap x.dropped?))) ∨
    ((actionsWhere fetched true ++ actionsWhere fetched false).find? x.strays = none ∧
      (s.load x f).perform j =
        (.ok (x.loaded f.scope (actionsWhere fetched true) (actionsWhere fetched false)),
          j'.noting
            ((actionsWhere fetched true ++ actionsWhere fetched false).filterMap x.dropped? ++
              [x.loadedEvent f.scope (actionsWhere fetched true)
                (actionsWhere fetched false)]))) := by
  cases hfind : (actionsWhere fetched true ++ actionsWhere fetched false).find? x.strays with
  | some a =>
    obtain ⟨ha, before, after, he, hbefore⟩ := List.find?_eq_some_iff_append.mp hfind
    have hbefore : ∀ b ∈ before, ¬x.strays b := by simpa using hbefore
    exact .inl ⟨a, before, rfl, perform_load_stray hf he hbefore ha⟩
  | none => exact .inr ⟨rfl, perform_load hf (List.find?_eq_none.mp hfind)⟩

theorem fst_load
    (hf : ((s.fetchAll x (.ofAssets x.assets) f.categories).perform j).1 = .ok fetched)
    (hfetched : ∀ p ∈ fetched, ∀ a ∈ p.2, ¬x.strays a) :
    ((s.load x f).perform j).1 = .ok
      ⟨if f.scope.includesPrice then
          some (x.schedule id (actionsWhere fetched true ++ actionsWhere fetched false))
        else none,
        if f.scope.includesVolume then some (x.schedule (1 / ·) (actionsWhere fetched true))
        else none⟩ := by
  have hno (scalesVolume : Bool) : ∀ a ∈ actionsWhere fetched scalesVolume, ¬x.strays a := by
    intro a ha
    obtain ⟨p, hp, ha⟩ := List.mem_flatMap.mp ha
    exact hfetched p (List.mem_filter.mp hp).1 a ha
  have hload := perform_load (s := s) (f := f) (Prod.ext hf rfl) fun a ha =>
    (List.mem_append.mp ha).elim (hno true a) (hno false a)
  rw [hload]
  rfl

end Source

end AsOf
