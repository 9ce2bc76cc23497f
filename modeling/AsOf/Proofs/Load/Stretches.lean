import AsOf.Proofs.Load.Protocol
import AsOf.Proofs.Load.Stored
import AsOf.Proofs.Store.FetchTrace

namespace AsOf

variable {α : Type}

def Correction.shift (n : Nat) (c : Correction α) : Correction α :=
  ⟨⟨n + c.rect.firstRow, n + c.rect.lastRow, c.rect.firstCol, c.rect.lastCol⟩, c.op⟩

namespace Schedule

def shift (n : Nat) (s : Schedule α) : Schedule α where
  buckets := s.buckets.map fun b => (n + b.1, b.2.map (Correction.shift n))
  ascending := by
    have h := s.ascending.map (n + ·) fun _ _ => Nat.add_lt_add_left (k := n)
    rwa [List.map_map] at h ⊢

variable {s : Schedule α} {n k : Nat}

theorem mem_rows_shift : k ∈ (s.shift n).rows ↔ ∃ i ∈ s.rows, n + i = k := by
  simp [rows, shift]

theorem bucket_shift (s : Schedule α) (n k : Nat) :
    (s.shift n).bucket (n + k) = (s.bucket k).map (Correction.shift n) := by
  obtain ⟨l, h⟩ := s
  simp only [bucket, shift]
  clear h
  induction l with
  | nil => rfl
  | cons b l ih =>
    obtain ⟨i, cs⟩ := b
    by_cases hk : k = i
    · simp [hk]
    · simpa [lookup_cons_eq_ite, hk] using ih

theorem bucket_eq_nil (h : k ∉ s.rows) : s.bucket k = [] := by
  rw [bucket, List.lookup_eq_none_iff.mpr]
  · rfl
  · intro b hb
    exact bne_iff_ne.mpr fun he => h (List.mem_map.mpr ⟨b, hb, he.symm⟩)

end Schedule

namespace Axes

variable {x x₁ x₂ : Axes} {a : Action} {t : Int} {k : Nat}
variable {value : Float → Float} {records : Category → List Action} {kinds : List Category}

/-- The axes `x` have the sessions of `x₁`, followed by those of `x₂`, and the same assets. -/
structure Joins (x x₁ x₂ : Axes) : Prop where
  dates : x.dates = x₁.dates ++ x₂.dates
  first : x₁.assets = x.assets
  second : x₂.assets = x.assets

/-- The action is of an asset on the axis, and its date lies between two stretches of sessions: at
or after the last session of the one, and before the first session of the other. -/
def between (x₁ x₂ : Axes) (a : Action) : Bool :=
  decide (a.sid ∈ x₁.assets) && decide (x₁.stop ≤ a.effective) && decide (a.effective < x₂.start)

theorem not_falls_of_gap (h₁ : x₁.stop ≤ a.effective) (h₂ : a.effective < x₂.start) :
    ¬x₁.falls k a ∧ ¬x₂.falls k a :=
  ⟨fun hf => Int.not_lt.mpr h₁ (lt_stop_of_falls hf),
    fun hf => Int.not_le.mpr h₂ (start_le_of_falls hf)⟩

namespace Joins

theorem numDates (h : x.Joins x₁ x₂) : x.numDates = x₁.numDates + x₂.numDates := by
  rw [Axes.numDates, h.dates, List.length_append]
  rfl

theorem row (h : x.Joins x₁ x₂) (t : Int) : x.row t = x₁.row t + x₂.row t := by
  rw [Axes.row, h.dates, rowOf, List.countP_append]
  rfl

theorem row_eq (h : x.Joins x₁ x₂) (t : Int) : x₂.row t = 0 ∨ x₁.row t = x₁.numDates := by
  rcases Nat.eq_zero_or_pos (x₂.row t) with hzero | hpos
  · exact .inl hzero
  · have hstart : x₂.start ≤ t := start_le_iff.mpr hpos
    have hincreasing := x.increasing
    rw [h.dates, List.pairwise_append] at hincreasing
    have hlt : x₁.stop < x₂.start :=
      hincreasing.2.2 _ (List.getLast_mem x₁.dates_ne_nil) _ (List.head_mem x₂.dates_ne_nil)
    have hnot : ¬t < x₁.stop := by omega
    rw [lt_stop_iff] at hnot
    have hle := rowOf_le_length x₁.dates t
    exact .inr (Nat.le_antisymm hle (Nat.not_lt.mp hnot))

theorem falls_first (h : x.Joins x₁ x₂) (hk : k < x₁.numDates) : x.falls k a ↔ x₁.falls k a := by
  have hrow := h.row a.effective
  have hcases := h.row_eq a.effective
  have hnum := h.numDates
  rw [falls_iff, falls_iff, h.first]
  refine and_congr_right fun _ => ?_
  omega

theorem falls_second (h : x.Joins x₁ x₂) (hk : 0 < k) :
    x.falls (x₁.numDates + k) a ↔ x₂.falls k a := by
  have hrow := h.row a.effective
  have hcases := h.row_eq a.effective
  have hnum := h.numDates
  have hle : x₁.row a.effective ≤ x₁.numDates := rowOf_le_length x₁.dates a.effective
  rw [falls_iff, falls_iff, h.second]
  refine and_congr_right fun _ => ?_
  omega

theorem falls_between (h : x.Joins x₁ x₂) : x.falls x₁.numDates a ↔ between x₁ x₂ a := by
  have hrow := h.row a.effective
  have hcases := h.row_eq a.effective
  have hnum := h.numDates
  have hle : x₁.row a.effective ≤ x₁.numDates := rowOf_le_length x₁.dates a.effective
  have hfirst := x₁.numDates_pos
  have hsecond := x₂.numDates_pos
  have hstop := lt_stop_iff (x := x₁) (t := a.effective)
  have hstart := start_le_iff (x := x₂) (t := a.effective)
  rw [falls_iff]
  simp only [between, Bool.and_eq_true, decide_eq_true_eq, h.first, and_assoc]
  refine and_congr_right fun _ => ?_
  omega

theorem not_falls_both (h : x.Joins x₁ x₂) {k₁ k₂ : Nat} (h₁ : x₁.falls k₁ a) :
    ¬x₂.falls k₂ a := by
  intro h₂
  obtain ⟨-, hrow₁, -, hlt₁⟩ := falls_iff.mp h₁
  obtain ⟨-, hrow₂, hpos₂, -⟩ := falls_iff.mp h₂
  have hcases := h.row_eq a.effective
  omega

theorem expected_first (h : x.Joins x₁ x₂) (hk : k < x₁.numDates) :
    x.expected value k records kinds = x₁.expected value k records kinds := by
  have hfalls : x.falls k = x₁.falls k := funext fun a => Bool.eq_iff_iff.mpr (h.falls_first hk)
  rw [expected, expected, hfalls, h.first]

theorem expected_second (h : x.Joins x₁ x₂) (hk : 0 < k) :
    x.expected value (x₁.numDates + k) records kinds =
      (x₂.expected value k records kinds).map (Correction.shift x₁.numDates) := by
  have hfalls : x.falls (x₁.numDates + k) = x₂.falls k :=
    funext fun a => Bool.eq_iff_iff.mpr (h.falls_second hk)
  rw [expected, expected, hfalls, h.second, List.map_flatMap]
  simp only [List.map_map]
  rfl

end Joins

/-- A schedule over two stretches of sessions and the schedules over each, all from the same actions
of some kinds. -/
structure Joined (value : Float → Float) (records : Category → List Action) (kinds : List Category)
    (x₁ x₂ : Axes) (s s₁ s₂ : Schedule Float) : Prop where
  first : ∀ k, s₁.bucket k = x₁.expected value k records kinds
  second : ∀ k, s₂.bucket k = x₂.expected value k records kinds
  before_gap : s.restrict (· < x₁.numDates) = s₁
  /-- At the first session after the gap there is what lies in the gap. -/
  at_gap : s.bucket x₁.numDates = kinds.flatMap fun c =>
    (arrange Action.key ((records c).filter (between x₁ x₂))).map fun a =>
      .multiplyCell x₁.numDates (x₁.assets.idxOf a.sid) (value a.ratio)
  row_at_gap : x₁.numDates ∈ s.rows ↔ s.bucket x₁.numDates ≠ []
  after_gap : s.after x₁.numDates = s₂.shift x₁.numDates
  zero_not_mem : 0 ∉ s₂.rows

theorem expected_eq_nil (hk : k = 0 ∨ x.numDates ≤ k) :
    x.expected value k records kinds = [] := by
  have hfalls : x.falls k = fun _ => false := by
    funext a
    rw [Bool.eq_false_iff]
    intro hf
    obtain ⟨-, -, hpos, hlt⟩ := falls_iff.mp hf
    omega
  rw [expected, hfalls]
  simp [arrange]

theorem zero_not_mem_rows_filed : 0 ∉ (x.filed value records kinds).rows := by
  rw [mem_rows_filed, expected_eq_nil (.inl rfl)]
  exact fun h => h rfl

namespace Joins

theorem restrict_filed (h : x.Joins x₁ x₂) :
    (x.filed value records kinds).restrict (· < x₁.numDates) = x₁.filed value records kinds := by
  have hend (k : Nat) (hk : ¬k < x₁.numDates) : x₁.expected value k records kinds = [] :=
    expected_eq_nil (.inr (Nat.not_lt.mp hk))
  apply Schedule.ext_bucket
  · intro k
    rw [Schedule.mem_rows_restrict, mem_rows_filed, mem_rows_filed, decide_eq_true_iff]
    by_cases hk : k < x₁.numDates
    · rw [h.expected_first hk, and_iff_left hk]
    · simp [hk, hend k hk]
  · intro k
    rw [Schedule.bucket_restrict, bucket_filed, bucket_filed]
    by_cases hk : k < x₁.numDates
    · rw [if_pos (decide_eq_true hk), h.expected_first hk]
    · rw [if_neg (by simpa using hk), hend k hk]

theorem after_filed (h : x.Joins x₁ x₂) :
    (x.filed value records kinds).after x₁.numDates =
      (x₂.filed value records kinds).shift x₁.numDates := by
  have hrows (k : Nat) : k ∈ ((x.filed value records kinds).after x₁.numDates).rows ↔
      k ∈ ((x₂.filed value records kinds).shift x₁.numDates).rows := by
    rw [Schedule.mem_rows_after, Schedule.mem_rows_shift, mem_rows_filed]
    constructor
    · rintro ⟨hne, hk⟩
      obtain ⟨i, rfl⟩ := Nat.exists_eq_add_of_lt hk
      rw [Nat.add_assoc, h.expected_second (Nat.succ_pos i)] at hne
      exact ⟨i + 1, mem_rows_filed.mpr fun hnil => hne (by rw [hnil]; rfl), rfl⟩
    · rintro ⟨i, hi, rfl⟩
      have hpos : 0 < i := Nat.pos_of_ne_zero fun hzero =>
        zero_not_mem_rows_filed (hzero ▸ hi)
      rw [h.expected_second hpos]
      exact ⟨fun hnil => mem_rows_filed.mp hi (List.map_eq_nil_iff.mp hnil), by omega⟩
  apply Schedule.ext_bucket hrows
  intro k
  by_cases hk : k ∈ ((x.filed value records kinds).after x₁.numDates).rows
  · obtain ⟨i, hi, rfl⟩ := Schedule.mem_rows_shift.mp ((hrows k).mp hk)
    have hlt := (Schedule.mem_rows_after.mp hk).2
    rw [Schedule.after, Schedule.bucket_restrict, if_pos (decide_eq_true hlt), bucket_filed,
      Schedule.bucket_shift, bucket_filed, h.expected_second (by omega)]
  · -- What is no row of the one is no row of the other, so there is nothing at it in either.
    rw [Schedule.bucket_eq_nil hk, Schedule.bucket_eq_nil (mt (hrows k).mpr hk)]

theorem joined_filed (h : x.Joins x₁ x₂) :
    Joined value records kinds x₁ x₂ (x.filed value records kinds) (x₁.filed value records kinds)
      (x₂.filed value records kinds) where
  first _ := bucket_filed
  second _ := bucket_filed
  before_gap := h.restrict_filed
  at_gap := by
    have hfalls : x.falls x₁.numDates = between x₁ x₂ :=
      funext fun a => Bool.eq_iff_iff.mpr h.falls_between
    rw [bucket_filed, expected, hfalls, h.first]
  row_at_gap := by rw [mem_rows_filed, bucket_filed]
  after_gap := h.after_filed
  zero_not_mem := zero_not_mem_rows_filed

theorem joined_of_mem (h : x.Joins x₁ x₂) {asked : Bool} :
    ∀ s ∈ (if asked then some (x.filed value records kinds) else none),
      ∀ s₁ ∈ (if asked then some (x₁.filed value records kinds) else none),
      ∀ s₂ ∈ (if asked then some (x₂.filed value records kinds) else none),
        Joined value records kinds x₁ x₂ s s₁ s₂ := by
  intro s hs s₁ hs₁ s₂ hs₂
  simp only [Option.mem_def, Option.ite_none_right_eq_some, Option.some.injEq] at hs hs₁ hs₂
  obtain ⟨-, rfl⟩ := hs
  obtain ⟨-, rfl⟩ := hs₁
  obtain ⟨-, rfl⟩ := hs₂
  exact h.joined_filed

end Joins

end Axes

def Flags.request (f : Flags) (dates assets : List Int) : LoadRequest :=
  ⟨dates, assets, f.splits, f.mergers, f.dividends, f.scope.name⟩

namespace Source

variable {s : Source} {f : Flags}

theorem loadRequest_request (s : Source) (f : Flags) (x : Axes) (j : Journal) :
    (s.loadRequest (f.request x.dates x.assets)).perform j = (s.load x f).perform j := by
  have hscope : f.scope.name = (f.request x.dates x.assets).scope := rfl
  exact s.perform_loadRequest hscope rfl rfl j

theorem fst_fetchCategory_error (hm : s.maxParams ≤ 2) (x : Axes) (assets : AssetIndex)
    (c : Category) (j : Journal) : ∃ e, ((s.fetchCategory x assets c).perform j).1 = .error e := by
  rw [fetchCategory, Run.fst_perform_bind]
  cases ((s.resolve c x.span).perform j).1 with
  | error e => exact ⟨e, rfl⟩
  | ok sids => exact ⟨_, congrArg Prod.fst (s.perform_fetch_error c _ x.span _ hm)⟩

theorem fst_load_error (hm : s.maxParams ≤ 2) (hf : f.categories ≠ []) (x : Axes) (j : Journal) :
    ∃ e, ((s.load x f).perform j).1 = .error e := by
  obtain ⟨c, cs, hcs⟩ := List.exists_cons_of_ne_nil hf
  obtain ⟨e, he⟩ := fst_fetchCategory_error hm x (.ofAssets x.assets) c j
  refine ⟨.store e, ?_⟩
  rw [load, Run.fst_perform_bind, Run.perform_adapt, hcs, fetchAll, Run.fst_perform_bind, he]
  rfl

end Source

namespace Database

variable {db : Database} {records : Category → List Action} {m : Nat}

/-- Loads over two stretches of sessions and over both together succeed, if the assets are an axis,
a query has room for one of them or none is needed, and no statement is refused for the number of
its variables. Both together have what each has, the second further down, and at the seam what
happens in the gap, of which neither has anything; and no action is in both. -/
theorem load_stretches (h : db.Holds records) (f : Flags) (assets : List Int)
    {first second : List Int} (hfirst : first ≠ []) (hsecond : second ≠ [])
    (hrise : (first ++ second).Pairwise (· < ·)) (j : Journal) :
    let load (dates : List Int) :=
      (((db.source m).loadRequest (f.request dates assets)).perform j).1
    (¬assets.Nodup → ∀ dates, ∃ e, load dates = .error (.badAxes e)) ∧
    (m ≤ 2 → f.categories ≠ [] → ∀ dates, ∃ e, load dates = .error e) ∧
    (assets.Nodup → 2 < m ∨ f.categories = [] → ∃ x x₁ x₂ : Axes,
      (x.dates = first ++ second ∧ x.assets = assets) ∧
      (x₁.dates = first ∧ x₁.assets = assets) ∧ (x₂.dates = second ∧ x₂.assets = assets) ∧
      (db.Admits m x f records → (∃ l, load (first ++ second) = .ok l) ∧
        (∃ l, load first = .ok l) ∧ ∃ l, load second = .ok l) ∧
      (∀ l l₁ l₂, load (first ++ second) = .ok l → load first = .ok l₁ → load second = .ok l₂ →
        (∀ l' ∈ [l, l₁, l₂], (l'.price.isSome ↔ f.scope.includesPrice) ∧
          (l'.volume.isSome ↔ f.scope.includesVolume)) ∧
        (∀ p ∈ l.price, ∀ p₁ ∈ l₁.price, ∀ p₂ ∈ l₂.price,
          Axes.Joined id records f.kinds x₁ x₂ p p₁ p₂) ∧
        ∀ v ∈ l.volume, ∀ v₁ ∈ l₁.volume, ∀ v₂ ∈ l₂.volume,
          Axes.Joined (1 / ·) records (f.kinds.filter Category.affectsVolume) x₁ x₂ v v₁ v₂) ∧
      (∀ a k, x₁.stop ≤ a.effective → a.effective < x₂.start → ¬x₁.falls k a ∧ ¬x₂.falls k a) ∧
      ∀ a k₁ k₂, x₁.falls k₁ a → ¬x₂.falls k₂ a) := by
  intro load
  have hload (x : Axes) (hx : x.assets = assets) :
      load x.dates = (((db.source m).load x f).perform j).1 := by
    subst hx
    exact congrArg Prod.fst ((db.source m).loadRequest_request f x j)
  have hinvalid {dates : List Int}
      (hno : ¬(dates ≠ [] ∧ dates.Pairwise (· < ·) ∧ assets.Nodup)) :
      ∃ e, load dates = .error (.badAxes e) := by
    have hscope : f.scope.name = (f.request dates assets).scope := rfl
    obtain ⟨e, he⟩ := (db.source m).perform_loadRequest_invalid hscope hno j
    exact ⟨e, congrArg Prod.fst he⟩
  refine ⟨fun hrepeats dates => hinvalid fun hvalid => hrepeats hvalid.2.2,
    fun hm hsome dates => ?_, fun honce hm => ?_⟩
  · by_cases hvalid : dates ≠ [] ∧ dates.Pairwise (· < ·) ∧ assets.Nodup
    · let x : Axes := ⟨dates, assets, hvalid.1, hvalid.2.1, hvalid.2.2⟩
      obtain ⟨e, he⟩ := Source.fst_load_error (s := db.source m) hm hsome x j
      exact ⟨e, (hload x rfl).trans he⟩
    · obtain ⟨e, he⟩ := hinvalid hvalid
      exact ⟨_, he⟩
  · obtain ⟨hrise₁, hrise₂, -⟩ := List.pairwise_append.mp hrise
    let x : Axes := ⟨first ++ second, assets, List.append_ne_nil_of_left_ne_nil hfirst second,
      hrise, honce⟩
    let x₁ : Axes := ⟨first, assets, hfirst, hrise₁, honce⟩
    let x₂ : Axes := ⟨second, assets, hsecond, hrise₂, honce⟩
    have hjoins : x.Joins x₁ x₂ := ⟨rfl, rfl, rfl⟩
    have hstored {l : Loaded} (y : Axes) (hy : y.assets = assets) (hl : load y.dates = .ok l) :
        l = y.stored records f := eq_stored_of_load h hm ((hload y hy).symm.trans hl)
    have hsuccess (hroom : db.Admits m x f records) (y : Axes) (hy : y.assets = assets)
        (hd : y.dates ⊆ first ++ second) : ∃ l, load y.dates = .ok l := by
      have hassets : y.assets ⊆ assets := hy ▸ List.Subset.refl y.assets
      have hfits : db.Admits m y f records := hroom.mono hd hassets
      exact ⟨_, (hload y hy).trans (fst_load_stored h hm hfits j)⟩
    refine ⟨x, x₁, x₂, ⟨rfl, rfl⟩, ⟨rfl, rfl⟩, ⟨rfl, rfl⟩, fun hroom => ?_, ?_,
      fun a k => Axes.not_falls_of_gap, fun a k₁ k₂ => hjoins.not_falls_both⟩
    · exact ⟨hsuccess hroom x rfl (List.Subset.refl _),
        hsuccess hroom x₁ rfl (List.subset_append_left first second),
        hsuccess hroom x₂ rfl (List.subset_append_right first second)⟩
    · intro l l₁ l₂ hl hl₁ hl₂
      obtain rfl := hstored x rfl hl
      obtain rfl := hstored x₁ rfl hl₁
      obtain rfl := hstored x₂ rfl hl₂
      refine ⟨?_, hjoins.joined_of_mem, hjoins.joined_of_mem⟩
      simp only [List.forall_mem_cons, List.not_mem_nil, false_implies, implies_true, and_true]
      exact ⟨x.isSome_stored records f, x₁.isSome_stored records f, x₂.isSome_stored records f⟩

/-- The first stretch ends at 20, the second begins at 30: at the seam stand a split of the last
session before the gap and a merger within it, but not the split of the first session after it,
which is left to the session after that. -/
theorem load_stretches_gap :
    let records : Category → List Action := fun
      | .split => [⟨5, 2, 20⟩, ⟨5, 3, 15⟩, ⟨5, 4, 30⟩]
      | .merger => [⟨7, 0.5, 29⟩]
      | .dividend => []
    let db := holding records
    let load (dates : List Int) :=
      (((db.source 3).loadRequest ((Flags.all .price).request dates [7, 5])).perform .empty).1
    db.Holds records ∧ ([10, 20] ++ [30, 40] : List Int).Pairwise (· < ·) ∧
      ∃ l l₁ l₂ p p₁ p₂, load ([10, 20] ++ [30, 40]) = .ok l ∧ load [10, 20] = .ok l₁ ∧
        load [30, 40] = .ok l₂ ∧ l.price = some p ∧ l₁.price = some p₁ ∧ l₂.price = some p₂ ∧
        p.bucket 2 = [.multiplyCell 2 1 2, .multiplyCell 2 0 0.5] ∧
        p₁.bucket 1 = [.multiplyCell 1 1 3] ∧ p₂.bucket 1 = [.multiplyCell 1 1 4] := by
  intro records db load
  have hholds : db.Holds records := holds_holding records
  have hrise : ([10, 20] ++ [30, 40] : List Int).Pairwise (· < ·) := by decide
  obtain ⟨x, ⟨d₁, a₁, hne₁, hrise₁, honce₁⟩, ⟨d₂, a₂, hne₂, hrise₂, honce₂⟩, -, ⟨hd₁, ha₁⟩,
      ⟨hd₂, ha₂⟩, hloads, hschedules, -⟩ :=
    (load_stretches (m := 3) hholds (.all .price) [7, 5] (by decide) (by decide)
      hrise .empty).2.2 (by decide) (.inl (by decide))
  cases hd₁
  cases ha₁
  cases hd₂
  cases ha₂
  have hroom : db.Admits 3 x (.all .price) records := admits_of_le (by decide) (by decide)
  obtain ⟨⟨l, hl⟩, ⟨l₁, hl₁⟩, l₂, hl₂⟩ := hloads hroom
  obtain ⟨hsome, hprice, -⟩ := hschedules l l₁ l₂ hl hl₁ hl₂
  obtain ⟨p, hp⟩ := Option.isSome_iff_exists.mp ((hsome l (by simp)).1.mpr rfl)
  obtain ⟨p₁, hp₁⟩ := Option.isSome_iff_exists.mp ((hsome l₁ (by simp)).1.mpr rfl)
  obtain ⟨p₂, hp₂⟩ := Option.isSome_iff_exists.mp ((hsome l₂ (by simp)).1.mpr rfl)
  have hjoined := hprice p hp p₁ hp₁ p₂ hp₂
  have hkinds : (Flags.all .price).kinds = [.split, .merger, .dividend] := rfl
  have hsplit {x : Axes} {k : Nat} {a : Action} (hs : (records .split).filter (x.falls k) = [a])
      (hm : (records .merger).filter (x.falls k) = []) :
      x.expected id k records (Flags.all .price).kinds =
        [.multiplyCell k (x.assets.idxOf a.sid) a.ratio] := by
    have hd : (records .dividend).filter (x.falls k) = [] := rfl
    simp only [Axes.expected, hkinds, List.flatMap_cons, List.flatMap_nil, hs, hm, hd]
    simp [arrange]
  refine ⟨hholds, hrise, l, l₁, l₂, p, p₁, p₂, hl, hl₁, hl₂, hp, hp₁, hp₂, hjoined.at_gap.trans ?_,
    (hjoined.first 1).trans (hsplit (a := ⟨5, 3, 15⟩) rfl rfl),
    (hjoined.second 1).trans (hsplit (a := ⟨5, 4, 30⟩) rfl rfl)⟩
  let between := Axes.between ⟨_, _, hne₁, hrise₁, honce₁⟩ ⟨_, _, hne₂, hrise₂, honce₂⟩
  have hsplits : (records .split).filter between = [⟨5, 2, 20⟩] := rfl
  have hmergers : (records .merger).filter between = [⟨7, 0.5, 29⟩] := rfl
  have hdividends : (records .dividend).filter between = [] := rfl
  simp only [hkinds, List.flatMap_cons, List.flatMap_nil, between, hsplits, hmergers, hdividends]
  simp [arrange, Axes.numDates]

end Database

end AsOf
