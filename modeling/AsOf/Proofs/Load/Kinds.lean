import AsOf.Proofs.Load.Scopes

namespace AsOf

namespace Flags

variable {f : Flags} {c : Category} {scope : Scope}

def only (c : Category) (scope : Scope) : Flags := ⟨c = .split, c = .merger, c = .dividend, scope⟩

theorem kinds_only (c : Category) (scope : Scope) : (only c scope).kinds = [c] := by
  cases c <;> rfl

theorem mem_kinds : c ∈ f.kinds ↔ f.includes c := by
  rw [kinds, List.mem_filter, and_iff_right c.mem_all]

theorem mem_categories : c ∈ f.categories ↔
    f.includes c ∧ (f.scope.includesPrice || c.affectsVolume) := by
  rw [categories, List.mem_filter, ← kinds, mem_kinds]

theorem mem_categories_only (h : c ∈ f.categories) : c ∈ (only c f.scope).categories := by
  rw [mem_categories] at h ⊢
  refine ⟨?_, h.2⟩
  rw [← mem_kinds, kinds_only]
  exact List.mem_singleton_self c

theorem kinds_volume (f : Flags) :
    f.kinds.filter Category.affectsVolume = if f.splits then [.split] else [] := by
  obtain ⟨splits, mergers, dividends, scope⟩ := f
  cases splits <;> cases mergers <;> cases dividends <;> rfl

end Flags

namespace Axes

variable {x : Axes} {value : Float → Float} {k : Nat} {f : Flags} {c : Category}
variable {rows : Category → List Action}

/-- The schedules of the actions of each kind, as far as a load includes the kind and its scope asks
for them. -/
def combined (x : Axes) (f : Flags) (rows : Category → List Action) : Loaded where
  price := if f.scope.includesPrice then some (x.schedule id (f.kinds.flatMap rows)) else none
  volume :=
    if f.scope.includesVolume then
      some (x.schedule (1 / ·) ((f.kinds.filter Category.affectsVolume).flatMap rows))
    else none

theorem combined_only (x : Axes) (c : Category) (scope : Scope) (rows : Category → List Action) :
    x.combined (.only c scope) rows =
      ⟨if scope.includesPrice then some (x.schedule id (rows c)) else none,
        if scope.includesVolume then
          some (x.schedule (1 / ·) (if c.affectsVolume then rows c else []))
        else none⟩ := by
  have hvolume : ([c].filter Category.affectsVolume).flatMap rows =
      if c.affectsVolume then rows c else [] := by
    rw [List.filter_singleton]
    cases c.affectsVolume
    · rfl
    · exact List.flatMap_singleton ..
  rw [combined, Flags.kinds_only, List.flatMap_singleton, hvolume]
  rfl

theorem combined_eq_loaded (x : Axes) (f : Flags) (rows : Category → List Action) :
    x.combined f rows =
      x.loaded f.scope ((f.categories.filter (·.affectsVolume == true)).flatMap rows)
        ((f.categories.filter (·.affectsVolume == false)).flatMap rows) := by
  rw [loaded, ← List.flatMap_append, f.categories_volume, combined]
  split
  · rename_i hp
    rw [← f.categories_volume, f.categories_price hp]
  · rfl

theorem assembled_eq_ok_iff_combined {l : Loaded} :
    x.assembled f.scope (actionsWhere (f.categories.map fun c => (c, rows c)) true)
        (actionsWhere (f.categories.map fun c => (c, rows c)) false) = .ok l ↔
      (∀ c ∈ f.categories, ∀ a ∈ rows c, ¬x.strays a) ∧ x.combined f rows = l := by
  rw [assembled_eq_ok_iff, actionsWhere_map, actionsWhere_map, combined_eq_loaded]
  apply and_congr_left
  intro _
  constructor
  · intro h c hc a ha
    apply h a
    cases hv : c.affectsVolume with
    | true => exact List.mem_append_left _ (List.mem_flatMap.mpr ⟨c, by simp [hc, hv], ha⟩)
    | false => exact List.mem_append_right _ (List.mem_flatMap.mpr ⟨c, by simp [hc, hv], ha⟩)
  · intro h a ha
    rcases List.mem_append.mp ha with ha | ha
    all_goals
      obtain ⟨c, hc, ha⟩ := List.mem_flatMap.mp ha
      exact h c (List.mem_filter.mp hc).1 a ha

end Axes

namespace Source

variable {s : Source} {x : Axes} {f : Flags} {j : Journal} {l : Loaded}

/-- The actions that a source without memory returns for a kind; none if it fails. -/
def rowsOf (s : Source) (x : Axes) (c : Category) : List Action :=
  ((s.fetchCategory x (.ofAssets x.assets) c).perform .empty).1.toOption.getD []

/-- A source without memory returns actions of a kind, and none of them strays. -/
def Provides (s : Source) (x : Axes) (c : Category) : Prop :=
  ((s.fetchCategory x (.ofAssets x.assets) c).perform .empty).1 = .ok (s.rowsOf x c) ∧
    ∀ a ∈ s.rowsOf x c, ¬x.strays a

namespace Stateless

theorem fst_fetchAll_eq_ok_iff (hs : s.Stateless) {cs : List Category}
    {fetched : List (Category × List Action)} :
    ((s.fetchAll x (.ofAssets x.assets) cs).perform j).1 = .ok fetched ↔
      (∀ c ∈ cs, ((s.fetchCategory x (.ofAssets x.assets) c).perform .empty).1 =
        .ok (s.rowsOf x c)) ∧ (cs.map fun c => (c, s.rowsOf x c)) = fetched := by
  rw [hs.fst_fetchAll]
  have hall (h : ∀ c ∈ cs, ((s.fetchCategory x (.ofAssets x.assets) c).perform .empty).1 =
      .ok (s.rowsOf x c)) :
      (cs.mapM fun c =>
          (((s.fetchCategory x (.ofAssets x.assets) c).perform .empty).1.map (c, ·))) =
        .ok (cs.map fun c => (c, s.rowsOf x c)) :=
    mapM_eq_ok fun c hc => by rw [h c hc]; rfl
  constructor
  · intro hf
    have hrows : ∀ c ∈ cs, ((s.fetchCategory x (.ofAssets x.assets) c).perform .empty).1 =
        .ok (s.rowsOf x c) := by
      intro c hc
      obtain ⟨p, hp⟩ := ok_of_mapM_ok hf c hc
      rw [rowsOf]
      cases hrow : ((s.fetchCategory x (.ofAssets x.assets) c).perform .empty).1 with
      | error e =>
        rw [hrow] at hp
        cases hp
      | ok rows => rfl
    exact ⟨hrows, Except.ok.inj ((hall hrows).symm.trans hf)⟩
  · rintro ⟨hrows, rfl⟩
    exact hall hrows

/-- A load succeeds if the source provides each kind that it visits, and then files what the source
returns for them. -/
theorem fst_load_eq_ok_iff (hs : s.Stateless) : ((s.load x f).perform j).1 = .ok l ↔
    (∀ c ∈ f.categories, s.Provides x c) ∧ x.combined f (s.rowsOf x) = l := by
  constructor
  · intro h
    obtain ⟨fetched, hf, hl⟩ := fetched_of_load h
    obtain ⟨hrows, rfl⟩ := hs.fst_fetchAll_eq_ok_iff.mp hf
    obtain ⟨hno, hl⟩ := Axes.assembled_eq_ok_iff_combined.mp hl
    exact ⟨fun c hc => ⟨hrows c hc, hno c hc⟩, hl⟩
  · rintro ⟨hprovides, hl⟩
    have hf := hs.fst_fetchAll_eq_ok_iff (j := j).mpr ⟨fun c hc => (hprovides c hc).1, rfl⟩
    rw [fst_load_eq, hf]
    exact Axes.assembled_eq_ok_iff_combined.mpr ⟨fun c hc => (hprovides c hc).2, hl⟩

end Stateless

/-- If the loads of each kind alone succeed then so does the load of all of them. Every bucket of
its price schedule has what theirs have, kind by kind, and its volume schedule is that of the
splits. -/
theorem kinds_independent (hs : s.Stateless) (x : Axes) (f : Flags) (parts : Category → Loaded)
    (js : Category → Journal)
    (hparts : ∀ c, f.includes c →
      ((s.load x (.only c f.scope)).perform (js c)).1 = .ok (parts c)) (j : Journal) :
    ∃ l, ((s.load x f).perform j).1 = .ok l ∧
      (l.price.isSome ↔ f.scope.includesPrice) ∧ (l.volume.isSome ↔ f.scope.includesVolume) ∧
      (∀ p ∈ l.price, ∃ q : Category → Schedule Float,
        (∀ c, f.includes c → (parts c).price = some (q c)) ∧
        ∀ k, (p.bucket k = f.kinds.flatMap fun c => (q c).bucket k) ∧
          (k ∈ p.rows ↔ ∃ c, f.includes c ∧ k ∈ (q c).rows)) ∧
      (f.splits → l.volume = (parts .split).volume) ∧
      (f.splits = false → ∀ v ∈ l.volume, v = .empty) := by
  have hpart (c : Category) (hc : f.includes c) :=
    hs.fst_load_eq_ok_iff.mp (hparts c hc)
  have hprovides : ∀ c ∈ f.categories, s.Provides x c := fun c hc =>
    (hpart c (Flags.mem_categories.mp hc).1).1 c (Flags.mem_categories_only hc)
  refine ⟨_, hs.fst_load_eq_ok_iff.mpr ⟨hprovides, rfl⟩, by simp [Axes.combined],
    by simp [Axes.combined], ?_, ?_, ?_⟩
  · intro p hp
    simp only [Axes.combined, Option.mem_def, Option.ite_none_right_eq_some,
      Option.some.injEq] at hp
    obtain ⟨hprice, rfl⟩ := hp
    refine ⟨fun c => x.schedule id (s.rowsOf x c), fun c hc => ?_, fun k => ⟨?_, ?_⟩⟩
    · rw [← (hpart c hc).2, Axes.combined_only]
      exact if_pos hprice
    · simp only [Axes.bucket_schedule, Axes.falling_flatMap_kinds]
    · simp only [Axes.mem_rows_schedule, Axes.falling_flatMap_kinds, ne_eq,
        List.flatMap_eq_nil_iff, Flags.mem_kinds, not_forall, exists_prop]
  · intro hsplits
    rw [← (hpart .split hsplits).2, Axes.combined_only, Axes.combined, f.kinds_volume,
      if_pos hsplits, List.flatMap_singleton]
    rfl
  · intro hno v hv
    simp only [Axes.combined, f.kinds_volume, hno, Bool.false_eq_true, if_false, Option.mem_def,
      Option.ite_none_right_eq_some, Option.some.injEq] at hv
    exact hv.2.symm

theorem kinds_independent_shared_row :
    let records : Category → List Action := fun
      | .split => [⟨7, 2, 10⟩]
      | .merger => [⟨7, 0.5, 15⟩]
      | .dividend => [⟨7, 0.75, 20⟩]
    let s := (Database.holding records).source 3
    let x : Axes := ⟨[10, 20, 30], [7], by decide, by decide, by decide⟩
    let parts := fun c => x.stored records (.only c .all)
    s.Stateless ∧
      (∀ c, (Flags.all .all).includes c →
        ((s.load x (.only c .all)).perform .empty).1 = .ok (parts c)) ∧
      ∃ l p, ((s.load x (.all .all)).perform .empty).1 = .ok l ∧ l.price = some p ∧
        p.bucket 1 = [.multiplyCell 1 0 2, .multiplyCell 1 0 0.5] ∧
        p.bucket 2 = [.multiplyCell 2 0 0.75] ∧ l.volume = (parts .split).volume := by
  intro records s x parts
  have hs : s.Stateless := (Database.holding records).source_stateless 3
  have hholds : (Database.holding records).Holds records := Database.holds_holding records
  have hparts (c : Category) : ((s.load x (.only c .all)).perform .empty).1 = .ok (parts c) :=
    Database.fst_load_stored hholds (.inl (by decide))
      (Database.admits_of_le (by decide) (by decide)) .empty
  obtain ⟨l, hl, hprice, -, hbuckets, hvolume, -⟩ :=
    kinds_independent hs x (.all .all) parts (fun _ => .empty) (fun c _ => hparts c) .empty
  obtain ⟨p, hp⟩ := Option.isSome_iff_exists.mp (hprice.mpr rfl)
  obtain ⟨q, hq, hrows⟩ := hbuckets p hp
  have hbucket (k : Nat) (c : Category) : (q c).bucket k =
      (arrange Action.key ((records c).filter (x.falls k))).map fun a =>
        .multiplyCell k (x.assets.idxOf a.sid) a.ratio := by
    have hc : x.filed id records (Flags.only c .all).kinds = q c :=
      Option.some.inj (hq c (by cases c <;> rfl))
    rw [← hc, Axes.bucket_filed, Flags.kinds_only, Axes.expected, List.flatMap_singleton]
    rfl
  have hkinds : (Flags.all .all).kinds = [.split, .merger, .dividend] := rfl
  have hfirst : (records .split).filter (x.falls 1) = [⟨7, 2, 10⟩] ∧
      (records .merger).filter (x.falls 1) = [⟨7, 0.5, 15⟩] ∧
      (records .dividend).filter (x.falls 1) = [] := ⟨rfl, rfl, rfl⟩
  have hsecond : (records .split).filter (x.falls 2) = [] ∧
      (records .merger).filter (x.falls 2) = [] ∧
      (records .dividend).filter (x.falls 2) = [⟨7, 0.75, 20⟩] := ⟨rfl, rfl, rfl⟩
  refine ⟨hs, fun c _ => hparts c, l, p, hl, hp, ?_, ?_, hvolume rfl⟩
  · rw [(hrows 1).1, hkinds]
    simp only [hbucket, List.flatMap_cons, List.flatMap_nil, hfirst]
    simp [arrange, x]
  · rw [(hrows 2).1, hkinds]
    simp only [hbucket, List.flatMap_cons, List.flatMap_nil, hsecond]
    simp [arrange, x]

end Source

end AsOf
