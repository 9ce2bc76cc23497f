import AsOf.Proofs.Load.Accounting

namespace AsOf

namespace Axes

variable {x : Axes} {value : Float → Float} {k i : Nat} {as bs splits others : List Action}

theorem falling_append (x : Axes) (value : Float → Float) (k : Nat) (as bs : List Action) :
    x.falling value k (as ++ bs) = x.falling value k as ++ x.falling value k bs := by
  rw [falling, List.filter_append, List.map_append]
  rfl

theorem length_falling (x : Axes) (value : Float → Float) (k : Nat) (as : List Action) :
    (x.falling value k as).length = (as.filter (x.falls k)).length :=
  List.length_map _

theorem getElem?_falling {a : Action} (h : (as.filter (x.falls k))[i]? = some a)
    (value : Float → Float) : (x.falling value k as)[i]? =
      some (.multiplyCell k (x.assets.idxOf a.sid) (value a.ratio)) := by
  rw [falling, List.getElem?_map, h]
  rfl

theorem falling_ne_nil_iff : x.falling value k as ≠ [] ↔ ∃ a ∈ as, x.falls k a := by
  rw [falling, Ne, List.map_eq_nil_iff, List.filter_eq_nil_iff]
  simp

/-- In every row the volumes have the inverses of the first corrections of the prices, in the same
cells, all of splits; the other corrections of the prices are of other actions. -/
structure Inverts (x : Axes) (splits others : List Action) (price volume : Schedule Float) :
    Prop where
  length_le : ∀ k, (volume.bucket k).length ≤ (price.bucket k).length
  pairs : ∀ k i, i < (volume.bucket k).length → ∃ a ∈ splits, x.falls k a ∧
    (price.bucket k)[i]? = some (.multiplyCell k (x.assets.idxOf a.sid) a.ratio) ∧
    (volume.bucket k)[i]? = some (.multiplyCell k (x.assets.idxOf a.sid) (1 / a.ratio))
  surplus : ∀ k, ∀ c ∈ (price.bucket k).drop (volume.bucket k).length, ∃ a ∈ others,
    x.falls k a ∧ c = .multiplyCell k (x.assets.idxOf a.sid) a.ratio
  mem_rows : ∀ k, k ∈ volume.rows ↔ ∃ a ∈ splits, x.falls k a

theorem inverts_schedule (x : Axes) (splits others : List Action) :
    x.Inverts splits others (x.schedule id (splits ++ others)) (x.schedule (1 / ·) splits) := by
  have hprice (k : Nat) : (x.schedule id (splits ++ others)).bucket k =
      x.falling id k splits ++ x.falling id k others := by
    rw [bucket_schedule, falling_append]
  have hvolume (k : Nat) : (x.schedule (1 / ·) splits).bucket k = x.falling (1 / ·) k splits :=
    bucket_schedule _ _ _
  have hlength (k : Nat) :
      (x.falling (1 / ·) k splits).length = (x.falling id k splits).length := by
    rw [length_falling, length_falling]
  constructor
  case length_le =>
    intro k
    rw [hprice, hvolume, hlength, List.length_append]
    exact Nat.le_add_right _ _
  case pairs =>
    intro k i hi
    rw [hvolume, length_falling] at hi
    have ha := List.getElem?_eq_getElem hi
    obtain ⟨hmem, hfalls⟩ := List.mem_filter.mp (List.getElem_mem hi)
    refine ⟨_, hmem, hfalls, ?_, ?_⟩
    · rw [hprice, List.getElem?_append_left (by rwa [length_falling])]
      exact getElem?_falling ha id
    · rw [hvolume]
      exact getElem?_falling ha (1 / ·)
  case surplus =>
    intro k c hc
    rw [hprice, hvolume, hlength, List.drop_left] at hc
    obtain ⟨a, ha, rfl⟩ := List.mem_map.mp hc
    obtain ⟨hmem, hfalls⟩ := List.mem_filter.mp ha
    exact ⟨a, hmem, hfalls, rfl⟩
  case mem_rows =>
    intro k
    rw [mem_rows_schedule, falling_ne_nil_iff]

end Axes

namespace Source

variable {s : Source} {x : Axes} {f : Flags} {j : Journal} {l : Loaded}

theorem loaded_of_load (h : ((s.load x f).perform j).1 = .ok l) :
    let got (c : Category) := s.returned c j.asked (Run.asks (s.load x f) j)
    l = x.loaded f.scope (got .split) (got .merger ++ got .dividend) := by
  intro got
  rcases s.passes_or_stops j.asked (s.plan x j.asked f.visited) with
    hpass | ⟨done, step, rest, e, hplan, hdone, he⟩
  · obtain ⟨j', hf, hnil⟩ := fetchAll_of_passes hpass
    obtain ⟨hsplits, hothers⟩ := actionsWhere_visited hnil
    rcases perform_load_cases hf with ⟨a, before, -, hload⟩ | ⟨-, hload⟩ <;> rw [hload] at h
    · cases h
    · cases h
      rw [hsplits, hothers]
  · rw [(s.load_of_stops x f j hplan hdone he).1] at h
    cases h

/-- A load of both schedules returns volumes that undo the splits among the corrections of prices,
position by position; what else moves prices comes after them and is of mergers and dividends. -/
theorem volume_inverts_price (s : Source) (x : Axes) (f : Flags) (j : Journal) (l : Loaded)
    (h : ((s.load x { f with scope := .all }).perform j).1 = .ok l) :
    let got (c : Category) :=
      s.returned c j.asked (Run.asks (s.load x { f with scope := .all }) j)
    ∃ p v, l.price = some p ∧ l.volume = some v ∧
      x.Inverts (got .split) (got .merger ++ got .dividend) p v := by
  intro got
  have hl := loaded_of_load h
  refine ⟨_, _, congrArg Loaded.price hl, congrArg Loaded.volume hl, ?_⟩
  exact x.inverts_schedule _ _

theorem volume_inverts_price_shared_row :
    let splits : List Action := [⟨7, 2, 5⟩, ⟨8, 4, 15⟩, ⟨7, 2, 12⟩, ⟨7, 3, 30⟩]
    let others : List Action := [⟨8, 0.5, 10⟩, ⟨7, 0.5, 22⟩]
    let s : Source := Script.source ⟨fun
      | .split => splits
      | .merger => [⟨8, 0.5, 10⟩]
      | .dividend => [⟨7, 0.5, 22⟩], some [7, 8], true, none⟩ 4
    let x : Axes := ⟨[10, 20, 30], [7, 8], by decide, by decide, by decide⟩
    ∃ l p v, ((s.load x (.all .all)).perform .empty).1 = .ok l ∧
      l.price = some p ∧ l.volume = some v ∧ x.Inverts splits others p v ∧
      1 ∈ v.rows ∧ 2 ∉ v.rows := by
  intro splits others s x
  have hplan : s.plan x [] (Flags.visited (.all .all)) =
      [.ask (.distinct .split ⟨10, 30⟩), .checkRoom, .ask (.fetch .split [7, 8] ⟨10, 30⟩),
        .ask (.distinct .merger ⟨10, 30⟩), .checkRoom, .ask (.fetch .merger [7, 8] ⟨10, 30⟩),
        .ask (.distinct .dividend ⟨10, 30⟩), .checkRoom,
        .ask (.fetch .dividend [7, 8] ⟨10, 30⟩)] := by
    decide +kernel
  have hpass : s.Passes [] (s.plan x [] (Flags.visited (.all .all))) := by
    rw [hplan]
    exact ⟨rfl, rfl, rfl, rfl, rfl, rfl, rfl, rfl, rfl, trivial⟩
  have hasks := Run.asks_eq (s.load_of_passes x (.all .all) .empty hpass).1
  rw [Journal.empty, hplan] at hasks
  have hload : ∃ l, ((s.load x (.all .all)).perform .empty).1 = .ok l := by
    have hcases := s.load_of_answered (x := x) (f := .all .all) (j := .empty) (by decide)
    rw [Journal.empty, hasks] at hcases
    obtain ⟨-, ⟨a, ha, -⟩ | ⟨-, hload, -⟩⟩ := hcases ⟨rfl, rfl, rfl, rfl, rfl, rfl, trivial⟩
    · cases ha
    · exact ⟨_, hload⟩
  obtain ⟨l, hl⟩ := hload
  obtain ⟨p, v, hp, hv, hinverts⟩ := s.volume_inverts_price x (.all .all) .empty l hl
  change x.Inverts (s.returned .split [] (Run.asks (s.load x (.all .all)) .empty))
    (s.returned .merger [] (Run.asks (s.load x (.all .all)) .empty) ++
      s.returned .dividend [] (Run.asks (s.load x (.all .all)) .empty)) p v at hinverts
  rw [Journal.empty, hasks] at hinverts
  change x.Inverts splits others p v at hinverts
  refine ⟨l, p, v, hl, hp, hv, hinverts, ?_, ?_⟩
  · exact (hinverts.mem_rows 1).mpr ⟨⟨8, 4, 15⟩, by simp [splits], rfl⟩
  · intro hmem
    obtain ⟨a, ha, hfalls⟩ := (hinverts.mem_rows 2).mp hmem
    simp only [splits, List.mem_cons, List.not_mem_nil, or_false] at ha
    rcases ha with rfl | rfl | rfl | rfl <;> cases hfalls

end Source

end AsOf
