import AsOf.Proofs.Load.Stretches
import AsOf.Proofs.Store.Stateless

namespace AsOf

theorem mapM_filter_ok {α β ε : Type} {f : α → Except ε β} {p : α → Bool} {q : β → Bool}
    (hpq : ∀ a b, f a = .ok b → p a = q b) {l : List α} {l' : List β} (h : l.mapM f = .ok l') :
    (l.filter p).mapM f = .ok (l'.filter q) := by
  induction l generalizing l' with
  | nil =>
    cases h
    rfl
  | cons a l ih =>
    rw [List.mapM_cons] at h
    cases ha : f a with
    | error e =>
      rw [ha] at h
      cases h
    | ok b =>
      rw [ha] at h
      cases hl : l.mapM f with
      | error e =>
        rw [hl] at h
        cases h
      | ok bs =>
        rw [hl] at h
        cases h
        have ih := ih hl
        rw [List.filter_cons, List.filter_cons, hpq a b ha]
        split
        · rw [List.mapM_cons, ha, ih]
          rfl
        · exact ih

namespace Flags

theorem categories_price_scope (f : Flags) :
    Flags.categories { f with scope := .price } = Flags.categories { f with scope := .all } := rfl

theorem categories_volume_scope (f : Flags) :
    Flags.categories { f with scope := .volume } =
      (Flags.categories { f with scope := .all }).filter Category.affectsVolume := by
  obtain ⟨splits, mergers, dividends, scope⟩ := f
  cases splits <;> cases mergers <;> cases dividends <;> rfl

end Flags

theorem actionsWhere_filter (fetched : List (Category × List Action)) :
    actionsWhere (fetched.filter fun p => p.1.affectsVolume) true = actionsWhere fetched true ∧
      actionsWhere (fetched.filter fun p => p.1.affectsVolume) false = [] := by
  simp only [actionsWhere, List.filter_filter]
  constructor
  · simp
  · rw [List.filter_eq_nil_iff.mpr]
    · rfl
    · intro p _
      cases p.1.affectsVolume <;> simp

namespace Axes

variable {x : Axes} {scope : Scope} {splits others : List Action} {l : Loaded}

/-- How a load ends that has fetched its actions: with the first that strays, or with schedules. -/
def assembled (x : Axes) (scope : Scope) (splits others : List Action) : Except LoadFault Loaded :=
  match (splits ++ others).find? x.strays with
  | some a => .error (.unknownAsset a.sid)
  | none => .ok (x.loaded scope splits others)

theorem assembled_cases (x : Axes) (splits others : List Action) :
    (∃ e, ∀ scope, x.assembled scope splits others = .error e) ∨
      ∀ scope, x.assembled scope splits others = .ok (x.loaded scope splits others) := by
  unfold assembled
  cases (splits ++ others).find? x.strays with
  | some a => exact .inl ⟨_, fun _ => rfl⟩
  | none => exact .inr fun _ => rfl

theorem assembled_eq_ok_iff : x.assembled scope splits others = .ok l ↔
    (∀ a ∈ splits ++ others, ¬x.strays a) ∧ x.loaded scope splits others = l := by
  rw [← List.find?_eq_none, assembled]
  cases (splits ++ others).find? x.strays <;> simp

end Axes

namespace Source

variable {s : Source}

theorem perform_load_eq (s : Source) (x : Axes) (f : Flags) (j : Journal) :
    ∃ vs, (s.load x f).perform j =
      ((((s.fetchAll x (.ofAssets x.assets) f.categories).perform j).1.mapError .store).bind
          fun fetched => x.assembled f.scope (actionsWhere fetched true)
            (actionsWhere fetched false),
        ((s.fetchAll x (.ofAssets x.assets) f.categories).perform j).2.noting vs) := by
  cases hf : (s.fetchAll x (.ofAssets x.assets) f.categories).perform j with
  | mk r j' =>
    cases r with
    | error e =>
      refine ⟨[], ?_⟩
      rw [perform_load_of_fetch_error hf, Journal.noting_nil]
      rfl
    | ok fetched =>
      change ∃ vs, _ = (x.assembled _ _ _, j'.noting vs)
      rcases perform_load_cases hf with ⟨a, before, ha, hload⟩ | ⟨hnone, hload⟩
      · exact ⟨_, by rw [hload, Axes.assembled, ha]⟩
      · exact ⟨_, by rw [hload, Axes.assembled, hnone]⟩

theorem fst_load_eq (s : Source) (x : Axes) (f : Flags) (j : Journal) :
    ((s.load x f).perform j).1 =
      (((s.fetchAll x (.ofAssets x.assets) f.categories).perform j).1.mapError .store).bind
        fun fetched => x.assembled f.scope (actionsWhere fetched true)
          (actionsWhere fetched false) := by
  obtain ⟨vs, h⟩ := s.perform_load_eq x f j
  rw [h]

theorem asked_load (s : Source) (x : Axes) (f : Flags) (j : Journal) :
    ((s.load x f).perform j).2.asked =
      ((s.fetchAll x (.ofAssets x.assets) f.categories).perform j).2.asked := by
  obtain ⟨vs, h⟩ := s.perform_load_eq x f j
  rw [h]
  rfl

theorem fetched_of_load {x : Axes} {f : Flags} {j : Journal} {l : Loaded}
    (h : ((s.load x f).perform j).1 = .ok l) : ∃ fetched,
      ((s.fetchAll x (.ofAssets x.assets) f.categories).perform j).1 = .ok fetched ∧
        x.assembled f.scope (actionsWhere fetched true) (actionsWhere fetched false) = .ok l := by
  rw [fst_load_eq] at h
  cases hf : ((s.fetchAll x (.ofAssets x.assets) f.categories).perform j).1 with
  | error e =>
    rw [hf] at h
    cases h
  | ok fetched =>
    rw [hf] at h
    exact ⟨fetched, rfl, h⟩

namespace Stateless

theorem fetchCategory (hs : s.Stateless) (x : Axes) (assets : AssetIndex) (c : Category) :
    (s.fetchCategory x assets c).Oblivious :=
  (hs.resolve c x.span).bind fun sids => hs.fetch c (sids.toList.filter assets.contains) x.span

theorem fetchAll (hs : s.Stateless) (x : Axes) (assets : AssetIndex) (cs : List Category) :
    (s.fetchAll x assets cs).Oblivious := by
  induction cs with
  | nil => exact .pure []
  | cons c cs ih =>
    apply (hs.fetchCategory x assets c).bind
    intro rows
    apply (Run.Oblivious.log _).bind
    intro _
    exact ih.bind fun more => .pure ((c, rows) :: more)

theorem fst_fetchAll (hs : s.Stateless) (x : Axes) (assets : AssetIndex) (cs : List Category)
    (j : Journal) :
    ((s.fetchAll x assets cs).perform j).1 = cs.mapM fun c =>
      (((s.fetchCategory x assets c).perform .empty).1.map (c, ·)) := by
  induction cs generalizing j with
  | nil => rfl
  | cons c cs ih =>
    rw [Source.fetchAll, Run.fst_perform_bind, (hs.fetchCategory x assets c).fst_eq j .empty,
      List.mapM_cons]
    cases ((s.fetchCategory x assets c).perform .empty).1 with
    | error e => rfl
    | ok rows =>
      change ((Run.log _ >>= _).perform _).1 = _
      rw [Run.perform_log_bind, Run.fst_perform_bind, ih]
      rfl

theorem fst_fetchAll_filter (hs : s.Stateless) {x : Axes} {assets : AssetIndex}
    {cs : List Category} {p : Category → Bool} {j : Journal}
    {fetched : List (Category × List Action)}
    (h : ((s.fetchAll x assets cs).perform j).1 = .ok fetched) (j' : Journal) :
    ((s.fetchAll x assets (cs.filter p)).perform j').1 =
      .ok (fetched.filter fun q => p q.1) := by
  rw [hs.fst_fetchAll] at h ⊢
  apply mapM_filter_ok _ h
  intro c q hq
  cases hc : ((s.fetchCategory x assets c).perform .empty).1 with
  | error e =>
    rw [hc] at hq
    cases hq
  | ok rows =>
    rw [hc] at hq
    cases hq
    rfl

theorem load (hs : s.Stateless) (x : Axes) (f : Flags) : (s.load x f).Oblivious := by
  obtain ⟨r, qs, h⟩ := hs.fetchAll x (.ofAssets x.assets) f.categories
  refine ⟨((s.load x f).perform .empty).1, qs, fun j =>
    ⟨?_, (asked_load s x f j).trans (h j).2⟩⟩
  rw [fst_load_eq s x f j, fst_load_eq s x f .empty, (h j).1, (h .empty).1]

theorem loadRequest (hs : s.Stateless) (q : LoadRequest) : (s.loadRequest q).Oblivious := by
  apply (Run.Oblivious.ofExcept _).bind
  intro scope
  apply (Run.Oblivious.ofExcept _).bind
  intro x
  exact hs.load x _

variable {x : Axes} {f : Flags}

/-- A load of prices is a load of everything of which only the prices are kept. -/
theorem fst_load_price (hs : s.Stateless) (j j' : Journal) :
    ((s.load x { f with scope := .price }).perform j).1 =
      ((s.load x { f with scope := .all }).perform j').1.map fun l => ⟨l.price, none⟩ := by
  have hfetch := hs.fetchAll x (.ofAssets x.assets) (Flags.categories { f with scope := .all })
  rw [fst_load_eq s x { f with scope := .price } j, fst_load_eq s x { f with scope := .all } j',
    f.categories_price_scope, hfetch.fst_eq j j']
  cases ((s.fetchAll x (.ofAssets x.assets)
      (Flags.categories { f with scope := .all })).perform j').1 with
  | error e => rfl
  | ok fetched =>
    change x.assembled .price _ _ = (x.assembled .all _ _).map _
    rcases x.assembled_cases (actionsWhere fetched true) (actionsWhere fetched false) with
      ⟨e, he⟩ | hok
    · rw [he, he]
      rfl
    · rw [hok, hok]
      rfl

/-- A load of volumes fetches the splits alone, so it may succeed where a load of everything fails,
but not the other way round. -/
theorem fst_load_volume (hs : s.Stateless) {j' : Journal} {l : Loaded}
    (h : ((s.load x { f with scope := .all }).perform j').1 = .ok l) (j : Journal) :
    ((s.load x { f with scope := .volume }).perform j).1 = .ok ⟨none, l.volume⟩ := by
  obtain ⟨fetched, hf, hl⟩ := fetched_of_load h
  obtain ⟨hno, rfl⟩ := Axes.assembled_eq_ok_iff.mp hl
  obtain ⟨hsplits, hothers⟩ := actionsWhere_filter fetched
  rw [fst_load_eq s x { f with scope := .volume } j, f.categories_volume_scope,
    hs.fst_fetchAll_filter hf j]
  change x.assembled .volume (actionsWhere _ true) (actionsWhere _ false) = _
  rw [hsplits, hothers]
  refine Axes.assembled_eq_ok_iff.mpr ⟨fun a ha => ?_, rfl⟩
  rw [List.append_nil] at ha
  exact hno a (List.mem_append_left _ ha)

end Stateless

/-- Loads of prices and of everything, from a source without memory, ask the same queries, and fail
with the same fault or find the same prices. If the load of everything succeeds, so does the load of
volumes, and finds the same volumes. -/
theorem scopes_agree (hs : s.Stateless) (x : Axes) (f : Flags) (j j' j'' : Journal) :
    let price := (s.load x { f with scope := .price }).perform j
    let all := (s.load x { f with scope := .all }).perform j'
    let volume := (s.load x { f with scope := .volume }).perform j''
    (∃ qs, price.2.asked = j.asked ++ qs ∧ all.2.asked = j'.asked ++ qs) ∧
    ((∃ e, price.1 = .error e ∧ all.1 = .error e) ∨
      ∃ l l' p, price.1 = .ok l ∧ all.1 = .ok l' ∧ l.price = some p ∧ l'.price = some p) ∧
    ∀ l', all.1 = .ok l' → ∃ l v, volume.1 = .ok l ∧ l.volume = some v ∧ l'.volume = some v := by
  intro price all volume
  have hprice : price.1 = all.1.map fun l => ⟨l.price, none⟩ := hs.fst_load_price j j'
  have hloaded {l : Loaded} (hl : all.1 = .ok l) :
      (∃ p, l.price = some p) ∧ ∃ v, l.volume = some v := by
    obtain ⟨fetched, -, hl⟩ := fetched_of_load hl
    obtain ⟨-, rfl⟩ := Axes.assembled_eq_ok_iff.mp hl
    exact ⟨⟨_, rfl⟩, _, rfl⟩
  refine ⟨?_, ?_, fun l' hl' => ?_⟩
  · obtain ⟨r, qs, h⟩ :=
      hs.fetchAll x (.ofAssets x.assets) (Flags.categories { f with scope := .all })
    refine ⟨qs, ?_, ?_⟩
    · exact (asked_load s x { f with scope := .price } j).trans (h j).2
    · exact (asked_load s x { f with scope := .all } j').trans (h j').2
  · cases hall : all.1 with
    | error e =>
      rw [hall] at hprice
      exact .inl ⟨e, hprice, rfl⟩
    | ok l' =>
      rw [hall] at hprice
      obtain ⟨⟨p, hp⟩, -⟩ := hloaded hall
      exact .inr ⟨_, l', p, hprice, rfl, hp, hp⟩
  · obtain ⟨-, v, hv⟩ := hloaded hl'
    exact ⟨_, v, hs.fst_load_volume hl' j'', hv, hv⟩

theorem scopes_agree_merger :
    let records : Category → List Action := fun
      | .split => [⟨7, 2, 10⟩]
      | .merger => [⟨7, 0.5, 15⟩]
      | .dividend => []
    let s := (Database.holding records).source 3
    let x : Axes := ⟨[10, 20], [7], by decide, by decide, by decide⟩
    let price := (s.load x (.all .price)).perform .empty
    let all := (s.load x (.all .all)).perform price.2
    let volume := (s.load x (.all .volume)).perform all.2
    s.Stateless ∧ (∃ qs, price.2.asked = qs ∧ all.2.asked = qs ++ qs) ∧
      ∃ l₁ l₂ l₃ p v, price.1 = .ok l₁ ∧ all.1 = .ok l₂ ∧ volume.1 = .ok l₃ ∧
        (l₁.price = some p ∧ l₂.price = some p) ∧ (l₂.volume = some v ∧ l₃.volume = some v) ∧
        p.bucket 1 = [.multiplyCell 1 0 2, .multiplyCell 1 0 0.5] ∧
        v.bucket 1 = [.multiplyCell 1 0 (1 / 2)] := by
  intro records s x price all volume
  have hs : s.Stateless := (Database.holding records).source_stateless 3
  have hholds : (Database.holding records).Holds records := Database.holds_holding records
  have hall : all.1 = .ok (x.stored records (.all .all)) :=
    Database.fst_load_stored hholds (.inl (by decide))
      (Database.admits_of_le (by decide) (by decide)) price.2
  obtain ⟨⟨qs, hprice, hboth⟩, hcases, hvolume⟩ :=
    scopes_agree hs x (.all .all) .empty price.2 all.2
  obtain ⟨l₃, v, hl₃, hv, hv'⟩ := hvolume _ hall
  rcases hcases with ⟨e, -, he⟩ | ⟨l₁, l₂, p, hl₁, hl₂, hp, hp'⟩
  · cases hall.symm.trans he
  · cases hall.symm.trans hl₂
    cases hp'
    cases hv'
    have hsplits : (records .split).filter (x.falls 1) = [⟨7, 2, 10⟩] := rfl
    have hmergers : (records .merger).filter (x.falls 1) = [⟨7, 0.5, 15⟩] := rfl
    have hdividends : (records .dividend).filter (x.falls 1) = [] := rfl
    refine ⟨hs, ⟨qs, hprice, hboth.trans (congrArg (· ++ qs) hprice)⟩, l₁, _, l₃, _, _, hl₁, hl₂,
      hl₃, ⟨hp, rfl⟩, ⟨rfl, hv⟩, ?_, ?_⟩
    · have hkinds : (Flags.all .all).kinds = [.split, .merger, .dividend] := rfl
      rw [Axes.bucket_filed, Axes.expected, hkinds]
      simp only [List.flatMap_cons, List.flatMap_nil, hsplits, hmergers, hdividends]
      simp [arrange, x]
    · have hkinds : (Flags.all .all).kinds.filter Category.affectsVolume = [.split] := rfl
      rw [Axes.bucket_filed, Axes.expected, hkinds]
      simp only [List.flatMap_cons, List.flatMap_nil, hsplits]
      simp [arrange, x]

end Source

end AsOf
