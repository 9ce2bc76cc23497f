import AsOf.Proofs.Config.Settings
import AsOf.Proofs.Load.PriceWindow
import AsOf.Proofs.Load.Stretches
import AsOf.Proofs.Window.Traversal

namespace AsOf

namespace Settings

variable {v v' : Json} {c : Settings} {s : Setting} {n : Nat}

theorem readPath_congr (h : Setting.storePath.read? v' = Setting.storePath.read? v) :
    readPath v' = readPath v := by
  rw [readPath, h, readPath]

theorem readScope_congr (h : Setting.scope.read? v' = Setting.scope.read? v) :
    readScope v' = readScope v := by
  rw [readScope, h, readScope]

theorem readNumber_congr (h : s.read? v' = s.read? v) : readNumber s v' = readNumber s v := by
  rw [readNumber, h, readNumber]

theorem readLength_congr
    (h : Setting.windowLength.read? v' = Setting.windowLength.read? v) :
    readLength v' = readLength v := by
  rw [readLength, readNumber_congr h, readLength]

theorem readFlag_congr (h : s.read? v' = s.read? v) : readFlag s v' = readFlag s v := by
  rw [readFlag, h, readFlag]

theorem readMaxParams_of_limit (hn : n < unsignedBound 64)
    (h : Setting.maxParams.read? v = some (.int n)) :
    readMaxParams v = if n < leastMaxParams then .error (.fewParams n) else .ok n := by
  have hrange : (0 : Int) ≤ n ∧ (n : Int) < unsignedBound 64 := ⟨by omega, by omega⟩
  have hnumber : readNumber .maxParams v = .ok (some n) := by
    rw [readNumber, h]
    exact if_pos hrange
  rw [readMaxParams, hnumber]
  by_cases hlow : n < leastMaxParams
  · rw [if_pos hlow]
    exact if_pos hlow
  · rw [if_neg hlow]
    exact if_neg hlow

theorem read_of_limit (hread : read v = .ok c)
    (hsame : ∀ s ≠ Setting.maxParams, s.read? v' = s.read? v) (hn : n < unsignedBound 64)
    (hlimit : Setting.maxParams.read? v' = some (.int n)) :
    read v' =
      if n < leastMaxParams then .error (.fewParams n) else .ok { c with maxParams := n } := by
  have hreads := read_eq_ok_iff.mp hread
  have hpath := (readPath_congr (hsame .storePath (by decide))).trans hreads.path
  have hmax := readMaxParams_of_limit hn hlimit
  by_cases hlow : n < leastMaxParams
  · rw [if_pos hlow] at hmax ⊢
    rw [read, hpath, hmax]
    rfl
  · rw [if_neg hlow] at hmax ⊢
    rw [read_eq_ok_iff]
    exact {
      path := hpath
      maxParams := hmax
      scope := (readScope_congr (hsame _ (by decide))).trans hreads.scope
      windowLength := (readLength_congr (hsame _ (by decide))).trans hreads.windowLength
      readOnly := (readFlag_congr (hsame _ (by decide))).trans hreads.readOnly
      splits := (readFlag_congr (hsame _ (by decide))).trans hreads.splits
      mergers := (readFlag_congr (hsame _ (by decide))).trans hreads.mergers
      dividends := (readFlag_congr (hsame _ (by decide))).trans hreads.dividends }

/-- The limits that are refused are those with which a fetch fails. -/
theorem read_fails_iff {source : Source} (hread : read v = .ok c)
    (hsame : ∀ s ≠ Setting.maxParams, s.read? v' = s.read? v)
    (hn : source.maxParams < unsignedBound 64)
    (hlimit : Setting.maxParams.read? v' = some (.int source.maxParams)) :
    (∃ e, read v' = .error e) ↔ ∃ e, source.chunkSize = .error e := by
  rw [read_of_limit hread hsame hn hlimit]
  by_cases hlow : source.maxParams < leastMaxParams
  · rw [if_pos hlow, source.chunkSize_eq_error (Nat.le_of_lt_succ hlow)]
    exact iff_of_true ⟨_, rfl⟩ ⟨_, rfl⟩
  · rw [if_neg hlow, source.chunkSize_eq (Nat.not_lt.mp hlow)]
    exact iff_of_false (fun ⟨_, h⟩ => by cases h) fun ⟨_, h⟩ => by cases h

theorem rangeParams_lt_maxParams (h : read v = .ok c) : rangeParams < c.maxParams := by
  obtain ⟨m, -, hleast, hm⟩ := readMaxParams_eq_ok_iff.mp (read_eq_ok_iff.mp h).maxParams
  rw [← hm]
  exact Nat.not_lt.mp hleast

theorem one_le_windowLength (h : read v = .ok c) : ∀ n ∈ c.windowLength, 1 ≤ n := by
  intro n hn
  obtain ⟨m, -, hzero, hm⟩ := readLength_eq_ok_iff.mp (read_eq_ok_iff.mp h).windowLength
  rw [hm, hn] at hzero
  exact Nat.one_le_iff_ne_zero.mpr fun he => hzero (congrArg some he)

theorem fst_load {d : Disk} {db : Database} (hopen : d.openFile c.path c.readOnly = .ok db)
    (x : Axes) (j : Journal) :
    ((c.load d x).perform j).1 = (((db.source c.maxParams).load x c.flags).perform
      (j.noting [.opened c.path c.scope x.numDates x.numAssets])).1.mapError .load := by
  have hsource : c.openStore d = .ok (db.source c.maxParams) := by
    rw [openStore, hopen]
  rw [load, hsource, Run.perform_ofExcept_bind_ok, Run.perform_log_bind, Run.perform_adapt]

end Settings

theorem Axes.lt_numDates_of_mem_filed {x : Axes} {value : Float → Float}
    {records : Category → List Action} {kinds : List Category} {k : Nat}
    (h : k ∈ (x.filed value records kinds).rows) : k < x.numDates := by
  rw [mem_rows_filed] at h
  by_contra hno
  exact h (expected_eq_nil (.inr (Nat.not_lt.mp hno)))

/-- A run with accepted settings that ask for prices, from a store with all tables, goes through
unless a statement is refused for the number of its variables: the load has the schedules of what is
stored, the window is to be had, it moves forward from the first session that it can end at to the
last, and nothing is pending then. Settings that are refused for the sake of their limit alone are
those with whose limit a fetch fails. -/
theorem configured_run {v : Json} {c : Settings} (hread : Settings.read v = .ok c) :
    (c.scope.includesPrice → ∀ (d : Disk) (db : Database) (records : Category → List Action),
      d.openFile c.path c.readOnly = .ok db → db.Holds records →
      ∀ (x : Axes) (g : Grid Float x.numDates x.numAssets) (length : Nat),
        1 ≤ length → length ≤ x.numDates → ∀ j : Journal,
          (db.Admits c.maxParams x c.flags records → ∃ w,
            ((c.load d x).perform j).1 = .ok (x.stored records c.flags) ∧
              (x.stored records c.flags).priceWindow g length = .ok w ∧
              w.RunsOut (x.numDates - length + 1)) ∧
          (¬db.Admits c.maxParams x c.flags records → ∃ k ∈ c.flags.categories,
            ¬db.limit.Admits c.maxParams (x.active (records k)).length ∧
              ((c.load d x).perform j).1 = .error (.load (.store (.database (.tooManyVariables k
                (min (c.maxParams - 2) (x.active (records k)).length) db.limit.count)))))) ∧
    (∀ length, c.windowLength = some length → 1 ≤ length) ∧
    ∀ (v' : Json) (n : Nat), n < unsignedBound 64 →
      (∀ s ≠ Setting.maxParams, s.read? v' = s.read? v) →
      Setting.maxParams.read? v' = some (.int n) → ∀ source : Source, source.maxParams = n →
        ((∃ e, Settings.read v' = .error e) ↔ ∃ e, source.chunkSize = .error e) := by
  have hmax := Settings.rangeParams_lt_maxParams hread
  refine ⟨fun hprice d db records hopen hholds x g length hpos hle j => ⟨fun hroom => ?_,
    fun hroom => ?_⟩, Settings.one_le_windowLength hread,
    fun v' n hn hsame hlimit source hsource => ?_⟩
  · have hfiled : (x.stored records c.flags).price = some (x.filed id records c.flags.kinds) :=
      if_pos hprice
    have hmake : Window.make g (x.filed id records c.flags.kinds) length =
        .ok (Window.standing g (x.filed id records c.flags.kinds) length none) :=
      Window.make_ok hpos hle (x.misfit?_schedule id _)
    refine ⟨_, ?_, Loaded.priceWindow_schedule hfiled g hpos hle,
      Window.runsOut_of_make hmake fun k => Axes.lt_numDates_of_mem_filed⟩
    rw [Settings.fst_load hopen, Database.fst_load_stored hholds (.inl hmax) hroom]
    rfl
  · obtain ⟨k, hk, hno, he⟩ := Database.fst_load_refused hholds hmax hroom
      (j.noting [.opened c.path c.scope x.numDates x.numAssets])
    refine ⟨k, hk, hno, ?_⟩
    rw [Settings.fst_load hopen, he]
    rfl
  · subst hsource
    exact Settings.read_fails_iff hread hsame hn hlimit

/-- The least limit that is accepted is enough for a run over three sessions, with windows of the
length that the settings give; with one less the settings are refused, as a fetch would be. -/
theorem configured_run_least_limit :
    let records : Category → List Action := fun
      | .split => [⟨5, 2, 10⟩]
      | .merger => [⟨5, 0.5, 20⟩]
      | .dividend => []
    let v (n : Nat) : Json := .obj [
      ("store", .obj [("max_bound_params", .int n), ("path", .str "a.db")]),
      ("window", .obj [("length", .int 2)])]
    let d : Disk := ⟨[("a.db", .holding records)], []⟩
    let x : Axes := ⟨[10, 20, 30], [5], by decide, by decide, by decide⟩
    let g : Grid Float x.numDates x.numAssets := #v[#v[8], #v[4], #v[6]]
    let c : Settings := ⟨"a.db", 3, true, true, true, true, .all, some 2⟩
    Settings.read (v 3) = .ok c ∧
      d.openFile c.path c.readOnly = .ok (Database.holding records).sealed ∧
      (Database.holding records).sealed.Holds records ∧
      (Database.holding records).sealed.Admits 3 x c.flags records ∧
      (∃ w, ((c.load d x).perform .empty).1 = .ok (x.stored records c.flags) ∧
        (x.stored records c.flags).priceWindow g 2 = .ok w ∧ w.RunsOut 2) ∧
      ∃ e, Settings.read (v 2) = .error e := by
  intro records v d x g c
  have hread : Settings.read (v 3) = .ok c := rfl
  have hopen : d.openFile c.path c.readOnly = .ok (Database.holding records).sealed := rfl
  have hholds : (Database.holding records).sealed.Holds records := Database.holds_holding records
  have hroom : (Database.holding records).sealed.Admits 3 x c.flags records :=
    Database.admits_of_le (by decide) (by decide)
  obtain ⟨hrun, hlength, hlimit⟩ := configured_run hread
  have hsame : ∀ s ≠ Setting.maxParams, s.read? (v 2) = s.read? (v 3) := by
    intro s hs
    cases s with
    | maxParams => exact absurd rfl hs
    | _ => rfl
  refine ⟨hread, hopen, hholds, hroom, (hrun rfl d _ records hopen hholds x g 2 (hlength 2 rfl)
    (by decide) .empty).1 hroom, ?_⟩
  have hsmall : 2 < unsignedBound 64 := by decide
  exact (hlimit (v 2) 2 hsmall hsame rfl ((Database.holding records).source 2) rfl).mpr
    ⟨_, Source.chunkSize_eq_error _ (Nat.le_refl 2)⟩

/-- Settings with a parameter limit above that of the database are accepted, and the load for many
assets is refused. -/
theorem configured_run_refused :
    let x := Database.wideAxes 32765
    let records := Database.splitsAt 0 x.assets
    let v : Json := .obj [
      ("adjustments", .obj [("scope", .str "price")]),
      ("store", .obj [("max_bound_params", .int 40000), ("path", .str "a.db")])]
    let c : Settings := ⟨"a.db", 40000, true, true, true, true, .price, none⟩
    let d : Disk := ⟨[("a.db", .holding records)], []⟩
    Settings.read v = .ok c ∧ c.scope.includesPrice ∧
      d.openFile c.path c.readOnly = .ok (Database.holding records).sealed ∧
      (Database.holding records).sealed.Holds records ∧
      ((c.load d x).perform .empty).1 =
        .error (.load (.store (.database (.tooManyVariables .split 32765 32766)))) := by
  intro x records v c d
  have hopen : d.openFile c.path c.readOnly = .ok (Database.holding records).sealed := rfl
  have hholds : (Database.holding records).sealed.Holds records := Database.holds_holding records
  have hcount := Database.length_assets_wideAxes 32765
  have hroom : ¬(Database.holding records).sealed.limit.Admits c.maxParams x.assets.length := by
    rw [hcount]
    decide
  have hload := Database.fst_load_splitsAt_refused (f := c.flags) hholds (by decide) rfl (by decide)
    hroom (Journal.empty.noting [.opened c.path c.scope x.numDates x.numAssets])
  rw [hcount] at hload
  refine ⟨rfl, rfl, hopen, hholds, ?_⟩
  rw [Settings.fst_load hopen, hload]
  rfl

end AsOf
