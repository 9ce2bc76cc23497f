import AsOf.Proofs.Load.Stretches

namespace AsOf

namespace Correction

variable {α : Type}

def toColumn (col : Nat) (c : Correction α) : Correction α :=
  ⟨⟨c.rect.firstRow, c.rect.lastRow, col, col⟩, c.op⟩

/-- A correction for an asset of one axis as it is on another axis, if that has the asset. -/
def onAxis? (assets assets' : List Int) (c : Correction α) : Option (Correction α) :=
  assets[c.column]?.bind fun sid =>
    if sid ∈ assets' then some (c.toColumn (assets'.idxOf sid)) else none

theorem onAxis?_multiplyCell {assets assets' : List Int} {sid : Int} (h : sid ∈ assets) (row : Nat)
    (factor : Float) :
    (multiplyCell row (assets.idxOf sid) factor : Correction α).onAxis? assets assets' =
      if sid ∈ assets' then some (multiplyCell row (assets'.idxOf sid) factor) else none := by
  have hsid : assets[(multiplyCell row (assets.idxOf sid) factor : Correction α).column]? =
      some sid := List.getElem?_idxOf h
  rw [onAxis?, hsid]
  rfl

end Correction

namespace Schedule

variable {α : Type} {s : Schedule α} {k : Nat}
variable {g : List (Correction α) → List (Correction α)}

def mapBuckets (s : Schedule α) (g : List (Correction α) → List (Correction α)) : Schedule α where
  buckets := s.buckets.map fun b => (b.1, g b.2)
  ascending := by
    rw [List.map_map]
    exact s.ascending

def prune (s : Schedule α) : Schedule α := s.restrict fun k => !(s.bucket k).isEmpty

theorem bucket_mapBuckets (s : Schedule α) (hg : g [] = []) (k : Nat) :
    (s.mapBuckets g).bucket k = g (s.bucket k) := by
  obtain ⟨l, h⟩ := s
  simp only [bucket, mapBuckets]
  clear h
  induction l with
  | nil => exact hg.symm
  | cons b l ih =>
    obtain ⟨i, cs⟩ := b
    rw [List.map_cons, lookup_cons_eq_ite, lookup_cons_eq_ite]
    split
    · rfl
    · exact ih

theorem mem_rows_of_bucket_ne_nil (h : s.bucket k ≠ []) : k ∈ s.rows := by
  by_contra hk
  exact h (bucket_eq_nil hk)

theorem mem_rows_prune : k ∈ s.prune.rows ↔ s.bucket k ≠ [] := by
  rw [prune, mem_rows_restrict]
  constructor
  · rintro ⟨-, hne⟩ hnil
    rw [hnil] at hne
    cases hne
  · intro hne
    exact ⟨mem_rows_of_bucket_ne_nil hne, by simpa using hne⟩

theorem bucket_prune (s : Schedule α) (k : Nat) : s.prune.bucket k = s.bucket k := by
  rw [prune, bucket_restrict]
  cases s.bucket k <;> rfl

/-- The schedule for one axis of assets as it is on another: in every bucket the corrections for
assets of both remain, in their order and in their new columns; a bucket left empty is removed. -/
def onAxis (assets assets' : List Int) (s : Schedule α) : Schedule α :=
  (s.mapBuckets (·.filterMap (Correction.onAxis? assets assets'))).prune

theorem bucket_onAxis (assets assets' : List Int) (s : Schedule α) (k : Nat) :
    (s.onAxis assets assets').bucket k =
      (s.bucket k).filterMap (Correction.onAxis? assets assets') := by
  rw [onAxis, bucket_prune, bucket_mapBuckets s List.filterMap_nil]

theorem mem_rows_onAxis {assets assets' : List Int} :
    k ∈ (s.onAxis assets assets').rows ↔ (s.onAxis assets assets').bucket k ≠ [] := by
  rw [onAxis, mem_rows_prune, bucket_prune]

end Schedule

namespace Axes

variable {x y : Axes} {value : Float → Float} {records : Category → List Action}
variable {kinds : List Category}

/-- The axes `y` have the sessions of `x` and some of its assets, in any order. -/
structure Narrows (y x : Axes) : Prop where
  dates : y.dates = x.dates
  assets : ∀ sid ∈ y.assets, sid ∈ x.assets

namespace Narrows

theorem falls_eq (h : y.Narrows x) (k : Nat) :
    y.falls k = fun a => decide (a.sid ∈ y.assets) && x.falls k a := by
  funext a
  rw [Bool.eq_iff_iff, Bool.and_eq_true, decide_eq_true_iff]
  simp only [falls_iff, row, numDates, h.dates]
  constructor
  · rintro ⟨hs, hrow⟩
    exact ⟨hs, h.assets a.sid hs, hrow⟩
  · rintro ⟨hs, -, hrow⟩
    exact ⟨hs, hrow⟩

/-- The actions that fall on a row are ordered by asset and not by column, so leaving some of them
out keeps the others in order. -/
theorem onAxis?_arranged (h : y.Narrows x) (value : Float → Float) (k : Nat) (as : List Action) :
    ((arrange Action.key (as.filter (x.falls k))).map fun a =>
        (.multiplyCell k (x.assets.idxOf a.sid) (value a.ratio) : Correction Float)).filterMap
          (Correction.onAxis? x.assets y.assets) =
      (arrange Action.key (as.filter (y.falls k))).map fun a =>
        .multiplyCell k (y.assets.idxOf a.sid) (value a.ratio) := by
  rw [List.filterMap_map, h.falls_eq, ← List.filter_filter,
    ← filter_arrange _ (as.filter (x.falls k)), ← List.filterMap_eq_map, List.filterMap_filter]
  apply List.filterMap_congr
  intro a ha
  have hs : a.sid ∈ x.assets := (falls_iff.mp (List.mem_filter.mp (mem_arrange.mp ha)).2).1
  simp only [decide_eq_true_eq]
  exact Correction.onAxis?_multiplyCell hs k (value a.ratio)

theorem expected_eq (h : y.Narrows x) (k : Nat) :
    y.expected value k records kinds =
      (x.expected value k records kinds).filterMap (Correction.onAxis? x.assets y.assets) := by
  rw [expected, expected, List.filterMap_flatMap]
  exact List.flatMap_congr fun c _ => (h.onAxis?_arranged value k (records c)).symm

theorem filed_eq (h : y.Narrows x) :
    y.filed value records kinds = (x.filed value records kinds).onAxis x.assets y.assets := by
  have hbucket (k : Nat) : (y.filed value records kinds).bucket k =
      ((x.filed value records kinds).onAxis x.assets y.assets).bucket k := by
    rw [Schedule.bucket_onAxis, bucket_filed, bucket_filed, h.expected_eq]
  apply Schedule.ext_bucket _ hbucket
  intro k
  rw [Schedule.mem_rows_onAxis, ← hbucket, bucket_filed, mem_rows_filed]

end Narrows

end Axes

namespace Database

variable {db : Database} {records : Category → List Action} {m m' : Nat} {x y : Axes}

/-- A load for some of the assets, in any order, has the schedules of the load for all of them on
the narrower axis. Each succeeds unless it is refused for the number of variables in a statement,
and the parameter limits may differ. -/
theorem load_narrowed (h : db.Holds records) (hm : 3 ≤ m) (hm' : 3 ≤ m') (hyx : y.Narrows x)
    (f : Flags) (j j' : Journal) :
    (db.Admits m x f records → ∃ wide, (((db.source m).load x f).perform j).1 = .ok wide) ∧
    (db.Admits m' y f records → ∃ narrow, (((db.source m').load y f).perform j').1 = .ok narrow) ∧
    ∀ wide narrow, (((db.source m).load x f).perform j).1 = .ok wide →
      (((db.source m').load y f).perform j').1 = .ok narrow →
      (wide.price.isSome ↔ f.scope.includesPrice) ∧
      (wide.volume.isSome ↔ f.scope.includesVolume) ∧
      narrow.price = wide.price.map (Schedule.onAxis x.assets y.assets) ∧
      narrow.volume = wide.volume.map (Schedule.onAxis x.assets y.assets) := by
  have hasked {included : Bool} (value : Float → Float) (kinds : List Category) :
      (if included then some (y.filed value records kinds) else none) =
        (if included then some (x.filed value records kinds) else none).map
          (Schedule.onAxis x.assets y.assets) := by
    rw [hyx.filed_eq]
    cases included <;> rfl
  refine ⟨fun hroom => ⟨_, fst_load_stored h (.inl hm) hroom j⟩,
    fun hroom => ⟨_, fst_load_stored h (.inl hm') hroom j'⟩, fun wide narrow hwide hnarrow => ?_⟩
  obtain rfl := eq_stored_of_load h (.inl hm) hwide
  obtain rfl := eq_stored_of_load h (.inl hm') hnarrow
  have hsome := x.isSome_stored records f
  exact ⟨hsome.1, hsome.2, hasked id f.kinds,
    hasked (1 / ·) (f.kinds.filter Category.affectsVolume)⟩

theorem load_narrowed_reordered :
    let records : Category → List Action := fun
      | .split => [⟨9, 3, 15⟩, ⟨5, 0.25, 19⟩, ⟨9, 4, 25⟩]
      | .merger => [⟨7, 0.75, 10⟩]
      | .dividend => []
    let db := holding records
    let x : Axes := ⟨[10, 20, 30], [5, 9, 7], by decide, by decide, by decide⟩
    let y : Axes := ⟨[10, 20, 30], [7, 5], by decide, by decide, by decide⟩
    db.Holds records ∧ y.Narrows x ∧ db.Admits 3 x (.all .price) records ∧
      db.Admits 4 y (.all .price) records ∧ ∃ wide narrow p q,
      (((db.source 3).load x (.all .price)).perform .empty).1 = .ok wide ∧
      (((db.source 4).load y (.all .price)).perform .empty).1 = .ok narrow ∧
      wide.price = some p ∧ narrow.price = some q ∧
      p.bucket 1 = [.multiplyCell 1 0 0.25, .multiplyCell 1 1 3, .multiplyCell 1 2 0.75] ∧
      q.bucket 1 = [.multiplyCell 1 1 0.25, .multiplyCell 1 0 0.75] ∧
      p.bucket 2 = [.multiplyCell 2 1 4] ∧ 2 ∉ q.rows := by
  intro records db x y
  have hholds : db.Holds records := holds_holding records
  have hyx : y.Narrows x := ⟨rfl, by decide⟩
  have hm : 3 ≤ 3 := by decide
  have hm' : 3 ≤ 4 := by decide
  have hroom : db.Admits 3 x (.all .price) records := admits_of_le (by decide) (by decide)
  have hroom' : db.Admits 4 y (.all .price) records := admits_of_le (by decide) (by decide)
  obtain ⟨hwides, hnarrows, hrelated⟩ := load_narrowed hholds hm hm' hyx (.all .price) .empty .empty
  obtain ⟨wide, hwide⟩ := hwides hroom
  obtain ⟨narrow, hnarrow⟩ := hnarrows hroom'
  obtain ⟨-, -, hprice, -⟩ := hrelated wide narrow hwide hnarrow
  have hstored : wide = x.stored records (.all .price) := eq_stored_of_load hholds (.inl hm) hwide
  let p := x.filed id records (Flags.all .price).kinds
  have hp : wide.price = some p := by rw [hstored]; rfl
  have hbucket (k : Nat) (splits mergers : List Action)
      (hsplits : (records .split).filter (x.falls k) = splits)
      (hmergers : (records .merger).filter (x.falls k) = mergers) :
      p.bucket k = (arrange Action.key splits ++ arrange Action.key mergers).map fun a =>
        .multiplyCell k (x.assets.idxOf a.sid) a.ratio := by
    have hkinds : (Flags.all .price).kinds = [.split, .merger, .dividend] := rfl
    have hdividends : (records .dividend).filter (x.falls k) = [] := rfl
    rw [Axes.bucket_filed, Axes.expected, hkinds]
    simp only [List.flatMap_cons, List.flatMap_nil, hsplits, hmergers, hdividends]
    simp [arrange]
  have hfirst : p.bucket 1 =
      [.multiplyCell 1 0 0.25, .multiplyCell 1 1 3, .multiplyCell 1 2 0.75] := by
    rw [hbucket 1 [⟨9, 3, 15⟩, ⟨5, 0.25, 19⟩] [⟨7, 0.75, 10⟩] rfl rfl]
    simp [arrange, List.mergeSort, List.MergeSort.Internal.splitInTwo, Action.key,
      Prod.Lex.toLex_le_toLex, x, List.idxOf_cons]
  have hsecond : p.bucket 2 = [.multiplyCell 2 1 4] := by
    rw [hbucket 2 [⟨9, 4, 25⟩] [] rfl rfl]
    simp [arrange, x, List.idxOf_cons]
  refine ⟨hholds, hyx, hroom, hroom', wide, narrow, p, p.onAxis [5, 9, 7] [7, 5], hwide, hnarrow,
    hp, ?_, hfirst, ?_, hsecond, ?_⟩
  · rw [hprice, hp]
    rfl
  · rw [Schedule.bucket_onAxis, hfirst]
    rfl
  · rw [Schedule.mem_rows_onAxis, Schedule.bucket_onAxis, hsecond]
    exact fun hne => hne rfl

end Database

end AsOf
