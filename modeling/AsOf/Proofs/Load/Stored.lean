import AsOf.Proofs.Load.Assembly
import AsOf.Proofs.Store.Resolve

namespace AsOf

namespace Axes

variable {x : Axes} {a : Action} {k k' : Nat} {value : Float → Float}

/-- The actions in range of assets on the axis, by asset and date. -/
def listed (x : Axes) (as : List Action) : List Action :=
  arrange Action.key (as.filter fun a => decide (a.sid ∈ x.assets) && x.span.contains a.effective)

/-- The corrections at a row from actions of some kinds, kind by kind, each by asset and date. -/
def expected (x : Axes) (value : Float → Float) (k : Nat) (records : Category → List Action)
    (kinds : List Category) : List (Correction Float) :=
  kinds.flatMap fun c => (arrange Action.key ((records c).filter (x.falls k))).map fun a =>
    .multiplyCell k (x.assets.idxOf a.sid) (value a.ratio)

theorem not_strays_of_mem_listed {as : List Action} (h : a ∈ x.listed as) : ¬x.strays a := by
  have hf := (List.mem_filter.mp (mem_arrange.mp h)).2
  simp only [Bool.and_eq_true, decide_eq_true_eq] at hf
  simp [strays, hf.1]

theorem falling_listed (as : List Action) :
    x.falling value k (x.listed as) = (arrange Action.key (as.filter (x.falls k))).map fun a =>
      .multiplyCell k (x.assets.idxOf a.sid) (value a.ratio) := by
  have hfalls (a : Action) (h : x.falls k a) :
      (decide (a.sid ∈ x.assets) && x.span.contains a.effective) = true := by
    rw [Bool.and_eq_true, decide_eq_true_eq]
    exact ⟨(falls_iff.mp h).1, span_contains_of_falls h⟩
  rw [falling, listed, filter_arrange, List.filter_filter]
  congr 2
  apply List.filter_congr
  intro a _
  by_cases h : x.falls k a
  · rw [h, hfalls a h, Bool.and_self]
  · rw [Bool.not_eq_true] at h
    rw [h, Bool.false_and]

theorem falling_flatMap_kinds (x : Axes) (value : Float → Float) (k : Nat) (kinds : List Category)
    (rows : Category → List Action) :
    x.falling value k (kinds.flatMap rows) = kinds.flatMap fun c => x.falling value k (rows c) := by
  simp only [falling, List.filter_flatMap, List.map_flatMap]

theorem falling_flatMap (kinds : List Category) (records : Category → List Action) :
    x.falling value k (kinds.flatMap fun c => x.listed (records c)) =
      x.expected value k records kinds := by
  rw [falling_flatMap_kinds, expected]
  simp only [falling_listed]

def filed (x : Axes) (value : Float → Float) (records : Category → List Action)
    (kinds : List Category) : Schedule Float :=
  x.schedule value (kinds.flatMap fun c => x.listed (records c))

theorem bucket_filed {records : Category → List Action} {kinds : List Category} :
    (x.filed value records kinds).bucket k = x.expected value k records kinds := by
  rw [filed, bucket_schedule, falling_flatMap]

theorem mem_rows_filed {records : Category → List Action} {kinds : List Category} :
    k ∈ (x.filed value records kinds).rows ↔ x.expected value k records kinds ≠ [] := by
  rw [filed, mem_rows_schedule, falling_flatMap]

/-- The assets on the axis that have an action in the range of the sessions. -/
def active (x : Axes) (as : List Action) : List Int :=
  x.assets.filter fun sid => as.any fun a => decide (a.sid = sid) && x.span.contains a.effective

theorem mem_active {as : List Action} {sid : Int} : sid ∈ x.active as ↔
    sid ∈ x.assets ∧ ∃ a ∈ as, a.sid = sid ∧ x.span.contains a.effective := by
  rw [active, List.mem_filter, List.any_eq_true]
  simp only [Bool.and_eq_true, decide_eq_true_eq]

theorem active_subset {y : Axes} (hd : y.dates ⊆ x.dates) (ha : y.assets ⊆ x.assets)
    (as : List Action) : y.active as ⊆ x.active as := by
  intro sid hsid
  obtain ⟨hs, a, hmem, rfl, hspan⟩ := mem_active.mp hsid
  rw [Span.contains_iff] at hspan
  have hstart : x.start ≤ y.start := x.isLeast_start.2 (hd y.isLeast_start.1)
  have hstop : y.stop ≤ x.stop := x.isGreatest_stop.2 (hd y.isGreatest_stop.1)
  refine mem_active.mpr ⟨ha hs, a, hmem, rfl, (Span.contains_iff _ _).mpr ⟨?_, ?_⟩⟩
  · exact hstart.trans hspan.1
  · exact hspan.2.trans hstop

theorem falls_unique (h : x.falls k a) (h' : x.falls k' a) : k = k' :=
  (falls_iff.mp h).2.1.symm.trans (falls_iff.mp h').2.1

theorem exists_falls_iff :
    (∃ k, x.falls k a) ↔ a.sid ∈ x.assets ∧ x.start ≤ a.effective ∧ a.effective < x.stop := by
  constructor
  · rintro ⟨k, h⟩
    exact ⟨(falls_iff.mp h).1, start_le_of_falls h, lt_stop_of_falls h⟩
  · rintro ⟨hs, hstart, hstop⟩
    exact ⟨_, falls_iff.mpr ⟨hs, rfl, start_le_iff.mp hstart, lt_stop_iff.mp hstop⟩⟩

end Axes

def Flags.kinds (f : Flags) : List Category := Category.all.filter f.includes

namespace Axes

/-- The schedules that a load makes of actions, as far as its scope asks for them. -/
def stored (x : Axes) (records : Category → List Action) (f : Flags) : Loaded where
  price := if f.scope.includesPrice then some (x.filed id records f.kinds) else none
  volume :=
    if f.scope.includesVolume then
      some (x.filed (1 / ·) records (f.kinds.filter Category.affectsVolume))
    else none

theorem isSome_stored (x : Axes) (records : Category → List Action) (f : Flags) :
    ((x.stored records f).price.isSome ↔ f.scope.includesPrice) ∧
      ((x.stored records f).volume.isSome ↔ f.scope.includesVolume) := by
  simp [stored]

end Axes

namespace Flags

theorem categories_volume (f : Flags) :
    f.categories.filter (·.affectsVolume == true) = f.kinds.filter Category.affectsVolume := by
  change (f.kinds.filter _).filter _ = _
  rw [List.filter_filter]
  apply List.filter_congr
  intro c _
  cases c.affectsVolume <;> simp

theorem categories_price (f : Flags) (h : f.scope.includesPrice) :
    f.categories.filter (·.affectsVolume == true) ++
      f.categories.filter (·.affectsVolume == false) = f.kinds := by
  have hall : f.categories = f.kinds := List.filter_eq_self.mpr fun c _ => by rw [h, Bool.true_or]
  rw [hall, kinds, Category.all]
  cases hs : f.splits <;> cases hm : f.mergers <;> cases hd : f.dividends <;>
    simp [includes, Category.affectsVolume, hs, hm, hd]

end Flags

theorem actionsWhere_map (cs : List Category) (g : Category → List Action) (b : Bool) :
    actionsWhere (cs.map fun c => (c, g c)) b = (cs.filter (·.affectsVolume == b)).flatMap g := by
  rw [actionsWhere, List.filter_map, List.flatMap_map]
  rfl

namespace Database

variable {db : Database} {records : Category → List Action} {m : Nat} {x : Axes} {f : Flags}
variable {found : SidSet} {c : Category} {cs : List Category} {l : Loaded}

/-- No statement of a load has too many variables. -/
def Admits (db : Database) (m : Nat) (x : Axes) (f : Flags) (records : Category → List Action) :
    Prop :=
  ∀ c ∈ f.categories, db.limit.Admits m (x.active (records c)).length

theorem admits_of_le (hm : rangeParams < m) (h : m ≤ db.limit.count) : db.Admits m x f records :=
  fun _ _ => VariableLimit.admits_of_le hm h

theorem Admits.mono {y : Axes} (h : db.Admits m x f records) (hd : y.dates ⊆ x.dates)
    (ha : y.assets ⊆ x.assets) : db.Admits m y f records := by
  intro c hc
  have honce : (y.active (records c)).Nodup := y.assets_nodup.filter _
  exact (h c hc).mono (honce.subperm (Axes.active_subset hd ha (records c))).length_le

theorem size_found (h : db.Holds records) (hf : db.sids c x.span = .ok found) :
    (SidSet.ofList (found.toList.filter (AssetIndex.ofAssets x.assets).contains)).size =
      (x.active (records c)).length := by
  have hasc : (found.toList.filter (AssetIndex.ofAssets x.assets).contains).Pairwise (· < ·) :=
    found.ascending.filter _
  have hperm : (found.toList.filter (AssetIndex.ofAssets x.assets).contains).Perm
      (x.active (records c)) := by
    apply (List.perm_ext_iff_of_nodup (hasc.imp Int.ne_of_lt) (x.assets_nodup.filter _)).mpr
    intro sid
    change _ ↔ sid ∈ x.active (records c)
    rw [List.mem_filter, AssetIndex.contains_ofAssets, decide_eq_true_iff, SidSet.mem_toList,
      h.mem_found_iff hf, Axes.mem_active, and_comm]
  rw [SidSet.size_ofList hasc, hperm.length_eq]

theorem fst_fetchCategory (h : db.Holds records) (hm : rangeParams < m) (c : Category)
    (j : Journal) :
    (((db.source m).fetchCategory x (.ofAssets x.assets) c).perform j).1 =
      if db.limit.Admits m (x.active (records c)).length then .ok (x.listed (records c))
      else .error (.database (.tooManyVariables c
        (min (m - rangeParams) (x.active (records c)).length) db.limit.count)) := by
  obtain ⟨found, hfound, -⟩ := h.sids c x.span
  have hresolve : (((db.source m).resolve c x.span).perform j).1 = .ok found := by
    rw [fst_resolve, hfound]
    rfl
  have hwanted (a : Int) : a ∈ found.toList.filter (AssetIndex.ofAssets x.assets).contains ↔
      a ∈ found ∧ a ∈ x.assets := by
    rw [List.mem_filter, AssetIndex.contains_ofAssets, decide_eq_true_iff]
    exact Iff.rfl
  rw [Source.fetchCategory, Run.fst_perform_bind_ok _ hresolve, ← size_found h hfound]
  split
  · rename_i hroom
    rw [fst_fetch db c _ _ _ hm hroom, h.rowsOf_found hfound hwanted, h.rowsOf]
    rfl
  · rename_i hroom
    exact fst_fetch_refused db c _ _ _ hm hroom

theorem fst_fetchAll (h : db.Holds records) (hm : rangeParams < m)
    (hroom : ∀ c ∈ cs, db.limit.Admits m (x.active (records c)).length) (j : Journal) :
    (((db.source m).fetchAll x (.ofAssets x.assets) cs).perform j).1 =
      .ok (cs.map fun c => (c, x.listed (records c))) := by
  induction cs generalizing j with
  | nil => rfl
  | cons c cs ih =>
    obtain ⟨hhead, htail⟩ := List.forall_mem_cons.mp hroom
    have hfirst := fst_fetchCategory (x := x) h hm c j
    rw [if_pos hhead] at hfirst
    rw [Source.fetchAll, Run.fst_perform_bind_ok _ hfirst, Run.perform_log_bind,
      Run.fst_perform_bind_ok _ (ih htail _)]
    rfl

/-- If a statement has too many variables, then the fetches end at the first kind with such a
statement. -/
theorem fst_fetchAll_refused (h : db.Holds records) (hm : rangeParams < m)
    (hroom : ¬∀ c ∈ cs, db.limit.Admits m (x.active (records c)).length) (j : Journal) :
    ∃ c ∈ cs, ¬db.limit.Admits m (x.active (records c)).length ∧
      (((db.source m).fetchAll x (.ofAssets x.assets) cs).perform j).1 =
        .error (.database (.tooManyVariables c
          (min (m - rangeParams) (x.active (records c)).length) db.limit.count)) := by
  induction cs generalizing j with
  | nil => exact absurd (fun c hc => by cases hc) hroom
  | cons c cs ih =>
    have hfirst := fst_fetchCategory (x := x) h hm c j
    by_cases hhead : db.limit.Admits m (x.active (records c)).length
    · have hrest : ¬∀ d ∈ cs, db.limit.Admits m (x.active (records d)).length :=
        fun hall => hroom (List.forall_mem_cons.mpr ⟨hhead, hall⟩)
      rw [if_pos hhead] at hfirst
      rw [Source.fetchAll, Run.fst_perform_bind_ok _ hfirst, Run.perform_log_bind]
      obtain ⟨d, hd, hno, he⟩ := ih hrest _
      refine ⟨d, List.mem_cons_of_mem c hd, hno, ?_⟩
      rw [Run.fst_perform_bind, he]
      rfl
    · refine ⟨c, List.mem_cons_self, hhead, ?_⟩
      rw [Source.fetchAll, Run.fst_perform_bind, hfirst, if_neg hhead]
      rfl

theorem fst_load_stored (h : db.Holds records) (hm : 2 < m ∨ f.categories = [])
    (hroom : db.Admits m x f records) (j : Journal) :
    (((db.source m).load x f).perform j).1 = .ok (x.stored records f) := by
  have hf : (((db.source m).fetchAll x (.ofAssets x.assets) f.categories).perform j).1 =
      .ok (f.categories.map fun c => (c, x.listed (records c))) := by
    rcases hm with hm | hnone
    · exact fst_fetchAll h hm hroom j
    · rw [hnone]
      rfl
  have hfetched : ∀ p ∈ f.categories.map fun c => (c, x.listed (records c)),
      ∀ a ∈ p.2, ¬x.strays a := by
    intro p hp a ha
    obtain ⟨c, -, rfl⟩ := List.mem_map.mp hp
    exact Axes.not_strays_of_mem_listed ha
  rw [Source.fst_load hf hfetched, actionsWhere_map, actionsWhere_map, ← List.flatMap_append,
    f.categories_volume, Axes.stored]
  split
  · rename_i hp
    rw [← f.categories_volume, f.categories_price hp]
    rfl
  · rfl

theorem fst_load_refused (h : db.Holds records) (hm : 2 < m) (hroom : ¬db.Admits m x f records)
    (j : Journal) : ∃ c ∈ f.categories, ¬db.limit.Admits m (x.active (records c)).length ∧
      (((db.source m).load x f).perform j).1 = .error (.store (.database (.tooManyVariables c
        (min (m - 2) (x.active (records c)).length) db.limit.count))) := by
  obtain ⟨c, hc, hno, he⟩ := fst_fetchAll_refused h hm hroom j
  refine ⟨c, hc, hno, ?_⟩
  rw [Source.load, Run.fst_perform_bind, Run.perform_adapt, he]
  rfl

/-- A load that succeeds has the schedules of what is stored. -/
theorem eq_stored_of_load (h : db.Holds records) (hm : 2 < m ∨ f.categories = []) {j : Journal}
    (hl : (((db.source m).load x f).perform j).1 = .ok l) : l = x.stored records f := by
  by_cases hroom : db.Admits m x f records
  · rw [fst_load_stored h hm hroom] at hl
    exact (Except.ok.inj hl).symm
  · rcases hm with hm | hnone
    · obtain ⟨c, -, -, he⟩ := fst_load_refused h hm hroom j
      rw [he] at hl
      cases hl
    · refine absurd (fun c hc => ?_) hroom
      rw [hnone] at hc
      cases hc

/-- Unless it is refused for the number of variables in a statement, a load succeeds and files every
action of the included kinds exactly where it falls: at each row the splits come first, then the
mergers, then the dividends, each by asset and date and in the order of insertion. -/
theorem load_exact (h : db.Holds records) (hm : 3 ≤ m) (x : Axes) (f : Flags) (j : Journal) :
    (db.Admits m x f records → ∃ l, (((db.source m).load x f).perform j).1 = .ok l ∧
      (l.price.isSome ↔ f.scope.includesPrice) ∧ (l.volume.isSome ↔ f.scope.includesVolume) ∧
      (∀ p ∈ l.price, ∀ k, p.bucket k = x.expected id k records f.kinds ∧
        (k ∈ p.rows ↔ p.bucket k ≠ [])) ∧
      ∀ v ∈ l.volume, ∀ k,
        v.bucket k = x.expected (1 / ·) k records (f.kinds.filter Category.affectsVolume) ∧
          (k ∈ v.rows ↔ v.bucket k ≠ [])) ∧
    (¬db.Admits m x f records → ∃ c ∈ f.categories,
      ¬db.limit.Admits m (x.active (records c)).length ∧
      (((db.source m).load x f).perform j).1 = .error (.store (.database (.tooManyVariables c
        (min (m - 2) (x.active (records c)).length) db.limit.count)))) ∧
    (∀ a k k', x.falls k a → x.falls k' a → k = k') ∧
    ∀ a, (∃ k, x.falls k a) ↔ a.sid ∈ x.assets ∧ x.start ≤ a.effective ∧ a.effective < x.stop := by
  have hfiled (value : Float → Float) (kinds : List Category) (k : Nat) :
      (x.filed value records kinds).bucket k = x.expected value k records kinds ∧
        (k ∈ (x.filed value records kinds).rows ↔
          (x.filed value records kinds).bucket k ≠ []) := by
    rw [Axes.bucket_filed]
    exact ⟨rfl, Axes.mem_rows_filed⟩
  have hsome := x.isSome_stored records f
  refine ⟨fun hroom => ⟨_, fst_load_stored h (.inl hm) hroom j, hsome.1, hsome.2, ?_, ?_⟩,
    fun hroom => fst_load_refused h hm hroom j, fun a k k' => Axes.falls_unique,
    fun a => Axes.exists_falls_iff⟩
  · intro p hp k
    simp only [Axes.stored, Option.mem_def, Option.ite_none_right_eq_some, Option.some.injEq] at hp
    obtain ⟨-, rfl⟩ := hp
    exact hfiled id f.kinds k
  · intro v hv k
    simp only [Axes.stored, Option.mem_def, Option.ite_none_right_eq_some, Option.some.injEq] at hv
    obtain ⟨-, rfl⟩ := hv
    exact hfiled (1 / ·) (f.kinds.filter Category.affectsVolume) k

theorem load_exact_boundaries :
    let records : Category → List Action := fun
      | .split => [⟨7, 0.5, 20⟩, ⟨5, 0.25, 19⟩, ⟨9, 3, 15⟩, ⟨5, 2, 9⟩, ⟨5, 0.125, 19⟩, ⟨5, 4, 30⟩]
      | .merger => [⟨5, 0.75, 10⟩]
      | .dividend => []
    let db := holding records
    let x : Axes := ⟨[10, 20, 30], [7, 5], by decide, by decide, by decide⟩
    db.Holds records ∧ 3 ≤ 3 ∧ db.Admits 3 x (.all .price) records ∧ ∃ l p,
      (((db.source 3).load x (.all .price)).perform .empty).1 = .ok l ∧ l.price = some p ∧
        p.bucket 1 = [.multiplyCell 1 1 0.25, .multiplyCell 1 1 0.125, .multiplyCell 1 1 0.75] := by
  intro records db x
  have hholds : db.Holds records := holds_holding records
  have hroom : db.Admits 3 x (.all .price) records := admits_of_le (by decide) (by decide)
  obtain ⟨hload, -⟩ := load_exact (m := 3) hholds (by decide) x (.all .price) .empty
  obtain ⟨l, hl, hsome, -, hprice, -⟩ := hload hroom
  obtain ⟨p, hp⟩ := Option.isSome_iff_exists.mp (hsome.mpr rfl)
  refine ⟨hholds, by decide, hroom, l, p, hl, hp, ?_⟩
  rw [(hprice p hp 1).1]
  have hsplits : (records .split).filter (x.falls 1) = [⟨5, 0.25, 19⟩, ⟨5, 0.125, 19⟩] := rfl
  have hmergers : (records .merger).filter (x.falls 1) = [⟨5, 0.75, 10⟩] := rfl
  have hdividends : (records .dividend).filter (x.falls 1) = [] := rfl
  have hkinds : (Flags.all .price).kinds = [.split, .merger, .dividend] := rfl
  simp only [Axes.expected, hkinds, List.flatMap_cons, List.flatMap_nil, hsplits, hmergers,
    hdividends]
  simp [arrange, List.mergeSort, List.MergeSort.Internal.splitInTwo, Action.key, x]

/-- A split of each of many assets at one date, the last asset first. -/
def splitsAt (date : Int) (assets : List Int) : Category → List Action
  | .split => assets.reverse.map fun sid => ⟨sid, 2, date⟩
  | _ => []

theorem active_splitsAt {date : Int} (hdate : x.span.contains date) :
    x.active (splitsAt date x.assets .split) = x.assets := by
  rw [Axes.active, List.filter_eq_self]
  intro sid hsid
  rw [List.any_eq_true]
  exact ⟨⟨sid, 2, date⟩, List.mem_map_of_mem (List.mem_reverse.mpr hsid),
    by simp [-Span.contains_iff, hdate]⟩

theorem fst_load_splitsAt_refused {date : Int} (h : db.Holds (splitsAt date x.assets)) (hm : 2 < m)
    (hdate : x.span.contains date) (hf : .split ∈ f.categories)
    (hroom : ¬db.limit.Admits m x.assets.length) (j : Journal) :
    (((db.source m).load x f).perform j).1 = .error (.store (.database
      (.tooManyVariables .split (min (m - 2) x.assets.length) db.limit.count))) := by
  have hsplits := active_splitsAt hdate
  have hno : ¬db.Admits m x f (splitsAt date x.assets) := by
    intro hall
    have hsplit := hall .split hf
    rw [hsplits] at hsplit
    exact hroom hsplit
  obtain ⟨c, -, hc, he⟩ := fst_load_refused h hm hno j
  have hnone : db.limit.Admits m (x.active []).length :=
    VariableLimit.admits_of_add_le (by simpa [Axes.active] using db.limit.rangeParams_lt.le)
  cases c with
  | split => rwa [hsplits] at he
  | merger | dividend => exact absurd hnone hc

def wideAxes (n : Nat) : Axes :=
  ⟨[0, 86400], firstSids n, by decide, by decide, (firstSids_ascending n).imp Int.ne_of_lt⟩

theorem length_assets_wideAxes (n : Nat) : (wideAxes n).assets.length = n := length_firstSids n

/-- With a parameter limit above that of the database, a load for many assets is refused though
every one of them has a split to be filed. -/
theorem load_exact_refused :
    let x := wideAxes 32765
    let db := holding (splitsAt 0 x.assets)
    db.Holds (splitsAt 0 x.assets) ∧ 3 ≤ 40000 ∧
      (((db.source 40000).load x (.all .price)).perform .empty).1 =
        .error (.store (.database (.tooManyVariables .split 32765 32766))) := by
  intro x db
  have hholds : db.Holds (splitsAt 0 x.assets) := holds_holding _
  have hcount := length_assets_wideAxes 32765
  have hroom : ¬db.limit.Admits 40000 x.assets.length := by
    rw [hcount]
    decide
  have hload := fst_load_splitsAt_refused (m := 40000) (f := .all .price) hholds (by decide) rfl
    (by decide) hroom .empty
  rw [hcount] at hload
  exact ⟨hholds, by decide, hload⟩

end Database

end AsOf
