import AsOf.Proofs.Load.Protocol

namespace AsOf

namespace Schedule

variable {α : Type}

theorem length_flatMap_fileUnder (row : Nat) (cs : List (Correction α))
    (l : List (Nat × List (Correction α))) :
    ((fileUnder row cs l).flatMap Prod.snd).length =
      (l.flatMap Prod.snd).length + cs.length := by
  induction l with
  | nil => simp [fileUnder]
  | cons b l ih =>
    obtain ⟨k, bucket⟩ := b
    rw [fileUnder]
    split
    · simp only [List.flatMap_cons, List.length_append]
      omega
    · split
      · simp only [List.flatMap_cons, List.length_append]
        omega
      · simp only [List.flatMap_cons, List.length_append, ih]
        omega

theorem length_corrections_pushAll (s : Schedule α) (l : List (Nat × Correction α)) :
    (s.pushAll l).corrections.length = s.corrections.length + l.length := by
  induction l generalizing s with
  | nil => rfl
  | cons e l ih =>
    have hpush : (s.push e.1 e.2).corrections.length = s.corrections.length + 1 :=
      length_flatMap_fileUnder e.1 [e.2] s.buckets
    change ((s.push e.1 e.2).pushAll l).corrections.length = _
    rw [ih, hpush, List.length_cons]
    omega

end Schedule

namespace Axes

variable {x : Axes} {as : List Action}

/-- Every bucket of the schedule holds something, is filed under a session after the first, and
holds only corrections of single cells of its own row and of a column of the axis. -/
def Suits (x : Axes) (t : Schedule Float) : Prop :=
  ∀ k ∈ t.rows, 1 ≤ k ∧ k < x.numDates ∧ t.bucket k ≠ [] ∧
    ∀ c ∈ t.bucket k, ∃ col factor, col < x.numAssets ∧ c = .multiplyCell k col factor

theorem suits_schedule (x : Axes) (value : Float → Float) (as : List Action) :
    x.Suits (x.schedule value as) := by
  intro k hk
  have hne := mem_rows_schedule.mp hk
  rw [bucket_schedule]
  obtain ⟨c, hc⟩ := List.exists_mem_of_ne_nil _ hne
  obtain ⟨a, ha, -⟩ := List.mem_map.mp hc
  obtain ⟨-, -, hpos, hlt⟩ := falls_iff.mp (List.mem_filter.mp ha).2
  refine ⟨hpos, hlt, hne, fun c hc => ?_⟩
  obtain ⟨b, hb, rfl⟩ := List.mem_map.mp hc
  obtain ⟨hs, -⟩ := falls_iff.mp (List.mem_filter.mp hb).2
  exact ⟨_, _, List.idxOf_lt_length_of_mem hs, rfl⟩

/-- Actions that do not stray are filed or left out, none of them twice. -/
theorem length_eq_filed_add_dropped (value : Float → Float) (h : ∀ a ∈ as, ¬x.strays a) :
    as.length = (x.schedule value as).corrections.length + x.early as + x.late as := by
  have hfiled : (x.schedule value as).corrections.length =
      (as.filterMap (x.entry? value)).length := by
    rw [schedule, Schedule.length_corrections_pushAll]
    exact Nat.zero_add _
  rw [hfiled]
  clear hfiled
  induction as with
  | nil => rfl
  | cons a as ih =>
    have ih := ih fun b hb => h b (List.mem_cons_of_mem _ hb)
    have hearly : x.early (a :: as) = x.early as + if a.effective < x.start then 1 else 0 := by
      simp [early, List.countP_cons]
    have hlate : x.late (a :: as) = x.late as + if x.stop ≤ a.effective then 1 else 0 := by
      simp [late, List.countP_cons]
    rw [List.length_cons, ih, hearly, hlate]
    rcases x.place_cases a with ⟨hplace, hlt, hle, -⟩ | ⟨hplace, hlt, hle, -⟩ |
      ⟨⟨row, col, hplace⟩, hlt, hle, -⟩ | ⟨-, -, -, hyes⟩
    · have hnone : x.entry? value a = none := by rw [Axes.entry?, hplace]
      rw [List.filterMap_cons_none hnone, if_pos hlt, if_neg (Int.not_le.mpr hle)]
      omega
    · have hnone : x.entry? value a = none := by rw [Axes.entry?, hplace]
      rw [List.filterMap_cons_none hnone, if_neg (Int.not_lt.mpr hlt), if_pos hle]
      omega
    · have hsome : x.entry? value a = some (row, .multiplyCell row col (value a.ratio)) := by
        rw [Axes.entry?, hplace]
      rw [List.filterMap_cons_some hsome, if_neg (Int.not_lt.mpr hlt),
        if_neg (Int.not_le.mpr hle), List.length_cons]
      omega
    · exact absurd hyes (h a List.mem_cons_self)

/-- The schedules of a load are those in scope, they suit the axes, and each holds every action that
concerns it and is not left out. -/
structure Balanced (x : Axes) (scope : Scope) (splits others : List Action) (l : Loaded) :
    Prop where
  price_isSome : l.price.isSome = scope.includesPrice
  volume_isSome : l.volume.isSome = scope.includesVolume
  suits_price : ∀ p ∈ l.price, x.Suits p
  suits_volume : ∀ v ∈ l.volume, x.Suits v
  price_balance : ∀ p ∈ l.price, splits.length + others.length =
    p.corrections.length + x.early (splits ++ others) + x.late (splits ++ others)
  volume_balance : ∀ v ∈ l.volume, splits.length =
    v.corrections.length + x.early splits + x.late splits

theorem balanced_loaded {scope : Scope} {splits others : List Action}
    (h : ∀ a ∈ splits ++ others, ¬x.strays a) :
    x.Balanced scope splits others (x.loaded scope splits others) := by
  have hprice : ∀ p ∈ (x.loaded scope splits others).price,
      x.schedule id (splits ++ others) = p :=
    fun p hp => Option.some.inj (Option.mem_ite_none_right.mp hp).2
  have hvolume : ∀ v ∈ (x.loaded scope splits others).volume, x.schedule (1 / ·) splits = v :=
    fun v hv => Option.some.inj (Option.mem_ite_none_right.mp hv).2
  constructor
  case price_isSome =>
    unfold loaded
    cases scope.includesPrice <;> rfl
  case volume_isSome =>
    unfold loaded
    cases scope.includesVolume <;> rfl
  case suits_price =>
    intro p hp
    rw [← hprice p hp]
    exact x.suits_schedule id _
  case suits_volume =>
    intro v hv
    rw [← hvolume v hv]
    exact x.suits_schedule (1 / ·) _
  case price_balance =>
    intro p hp
    rw [← hprice p hp, ← List.length_append]
    exact length_eq_filed_add_dropped id h
  case volume_balance =>
    intro v hv
    rw [← hvolume v hv]
    exact length_eq_filed_add_dropped (1 / ·) fun a ha => h a (List.mem_append_left _ ha)

end Axes

theorem Flags.mem_visited {f : Flags} {c : Category} (h : c ∈ f.visited) :
    f.scope.includesPrice ∨ c.affectsVolume := by
  rw [← f.categories_eq] at h
  simpa using (List.mem_filter.mp h).2

theorem actionsWhere_append (l m : List (Category × List Action)) (b : Bool) :
    actionsWhere (l ++ m) b = actionsWhere l b ++ actionsWhere m b := by
  simp only [actionsWhere, List.filter_append, List.flatMap_append]

theorem actionsWhere_optional {g : Category → List Action} {c : Category} {included : Bool}
    (h : included = false → g c = []) (b : Bool) :
    actionsWhere ((if included then [c] else []).map fun c => (c, g c)) b =
      if c.affectsVolume = b then g c else [] := by
  cases included with
  | false => simp [actionsWhere, h rfl]
  | true => by_cases hb : c.affectsVolume = b <;> simp [actionsWhere, hb]

theorem actionsWhere_visited {f : Flags} {g : Category → List Action}
    (hg : ∀ c, c ∉ f.visited → g c = []) :
    actionsWhere (f.visited.map fun c => (c, g c)) true = g .split ∧
      actionsWhere (f.visited.map fun c => (c, g c)) false = g .merger ++ g .dividend := by
  have hsplit : f.splits = false → g .split = [] :=
    fun h => hg .split (by simp [Flags.visited, h])
  have hmerger : (f.mergers && f.scope.includesPrice) = false → g .merger = [] :=
    fun h => hg .merger (by simp [Flags.visited, h])
  have hdividend : (f.dividends && f.scope.includesPrice) = false → g .dividend = [] :=
    fun h => hg .dividend (by simp [Flags.visited, h])
  simp only [Flags.visited, List.map_append, actionsWhere_append, actionsWhere_optional hsplit,
    actionsWhere_optional hmerger, actionsWhere_optional hdividend]
  simp [Category.affectsVolume]

def Run.asks {ε α : Type} (x : Run ε α) (j : Journal) : List Query :=
  (x.perform j).2.asked.drop j.asked.length

theorem Run.asks_eq {ε α : Type} {x : Run ε α} {j : Journal} {qs : List Query}
    (h : (x.perform j).2.asked = j.asked ++ qs) : x.asks j = qs := by
  rw [asks, h, List.drop_left]

namespace Source

variable {s : Source} {x : Axes} {f : Flags} {j : Journal}

theorem fault?_of_answered {past : List Query} {done : List Step} {step : Step}
    (hm : rangeParams < s.maxParams)
    (h : s.Passes past ((queriesOf (done ++ [step])).map .ask)) :
    s.fault? (past ++ queriesOf done) step = none := by
  cases step with
  | checkRoom => exact if_neg (Nat.not_le.mpr hm)
  | ask q =>
    rw [queriesOf_append, List.map_append, passes_append, queriesOf_map_ask] at h
    exact h.2.1

theorem fetchAll_of_passes (hpass : s.Passes j.asked (s.plan x j.asked f.visited)) :
    ∃ j', (s.fetchAll x (.ofAssets x.assets) f.categories).perform j =
        (.ok (f.visited.map fun c => (c, s.returned c j.asked (Run.asks (s.load x f) j))), j') ∧
      ∀ c, c ∉ f.visited → s.returned c j.asked (Run.asks (s.load x f) j) = [] := by
  have hasks := Run.asks_eq (s.load_of_passes x f j hpass).1
  obtain ⟨j', hf, -⟩ := (s.fetchAll_follows x f.nodup_visited j).of_passes hpass
  rw [hasks, f.categories_eq]
  refine ⟨j', hf, fun c hc => returned_eq_nil _ fun q hq he => ?_⟩
  exact hc (he ▸ category_of_mem_plan hq)

theorem passes_of_answered (hm : rangeParams < s.maxParams)
    (h : s.Passes j.asked ((Run.asks (s.load x f) j).map .ask)) :
    s.Passes j.asked (s.plan x j.asked f.visited) := by
  rcases s.passes_or_stops j.asked (s.plan x j.asked f.visited) with
    hpass | ⟨done, step, rest, e, hplan, hdone, he⟩
  · exact hpass
  · -- The step that fails is the last that the load has taken, so it has been answered.
    rw [Run.asks_eq (s.load_of_stops x f j hplan hdone he).2] at h
    rw [fault?_of_answered hm h] at he
    cases he

/-- A load that is answered has nothing of the kinds that it does not visit, and finds a first
action that strays, or files all actions and says so. -/
theorem load_of_answered (hm : rangeParams < s.maxParams)
    (h : s.Passes j.asked ((Run.asks (s.load x f) j).map .ask)) :
    let got (c : Category) := s.returned c j.asked (Run.asks (s.load x f) j)
    (∀ c, c ∉ f.visited → got c = []) ∧
    ((∃ a, (got .split ++ (got .merger ++ got .dividend)).find? x.strays = some a ∧
      ((s.load x f).perform j).1 = .error (.unknownAsset a.sid)) ∨
    ((got .split ++ (got .merger ++ got .dividend)).find? x.strays = none ∧
      ((s.load x f).perform j).1 =
        .ok (x.loaded f.scope (got .split) (got .merger ++ got .dividend)) ∧
      ∃ vs, ((s.load x f).perform j).2.events = j.events ++ vs ++
          [x.loadedEvent f.scope (got .split) (got .merger ++ got .dividend)] ∧
        ∀ v ∈ vs, v.completes = false)) := by
  intro got
  obtain ⟨j', hf, hnil⟩ := fetchAll_of_passes (passes_of_answered hm h)
  obtain ⟨hsplits, hothers⟩ := actionsWhere_visited hnil
  obtain ⟨vs, hvs, hno⟩ := s.fetchAll_unfinished x (.ofAssets x.assets) f.categories j
  rw [hf] at hvs
  have hcases := perform_load_cases hf
  rw [hsplits, hothers] at hcases
  refine ⟨hnil, ?_⟩
  rcases hcases with ⟨a, before, ha, hload⟩ | ⟨hnone, hload⟩
  · exact .inl ⟨a, ha, congrArg Prod.fst hload⟩
  · refine .inr ⟨hnone, congrArg Prod.fst hload,
      vs ++ (got .split ++ (got .merger ++ got .dividend)).filterMap x.dropped?, ?_, ?_⟩
    · rw [hload, Journal.noting, hvs]
      simp only [List.append_assoc]
      rfl
    · intro v hv
      exact (List.mem_append.mp hv).elim (hno v) completes_of_mem_dropped

/-- A load that is answered fails exactly if an action in range is off the axis of assets, and names
the first. Otherwise its schedules balance, and its last event gives their counts. -/
theorem load_accounts (s : Source) (x : Axes) (f : Flags) (j : Journal) (hm : 3 ≤ s.maxParams)
    (hanswered : s.Passes j.asked ((Run.asks (s.load x f) j).map .ask)) :
    let t := (s.load x f).perform j
    let got (c : Category) := s.returned c j.asked (Run.asks (s.load x f) j)
    let splits := got .split
    let others := got .merger ++ got .dividend
    ((∃ e, t.1 = .error e) ↔ ∃ a ∈ splits ++ others, x.strays a) ∧
    (∀ a, (splits ++ others).find? x.strays = some a → t.1 = .error (.unknownAsset a.sid)) ∧
    ∀ l, t.1 = .ok l →
      x.Balanced f.scope splits others l ∧
      (f.scope = .volume → others = []) ∧
      ∃ vs, t.2.events = j.events ++ vs ++
          [.loaded f.scope splits.length others.length (l.price.elim 0 (·.rows.length))
            (l.volume.elim 0 (·.rows.length)) (x.early (splits ++ others))
            (x.late (splits ++ others))] ∧
        ∀ v ∈ vs, v.completes = false := by
  intro t got splits others
  obtain ⟨hnil, hcases⟩ := load_of_answered hm hanswered
  rcases hcases with ⟨a, ha, hload⟩ | ⟨hnone, hload, vs, hvs, hno⟩
  · have ht : t.1 = .error (.unknownAsset a.sid) := hload
    rw [ht]
    refine ⟨iff_of_true ⟨_, rfl⟩ ⟨a, List.mem_of_find?_eq_some ha, List.find?_some ha⟩, ?_, ?_⟩
    · intro b hb
      rw [Option.some.inj (hb.symm.trans ha)]
    · intro l hl
      cases hl
  · have ht : t.1 = .ok (x.loaded f.scope splits others) := hload
    have hstrays : ∀ a ∈ splits ++ others, ¬x.strays a := List.find?_eq_none.mp hnone
    rw [ht]
    refine ⟨iff_of_false (fun ⟨e, he⟩ => by cases he) fun ⟨a, ha, hyes⟩ => hstrays a ha hyes,
      ?_, ?_⟩
    · intro a ha
      cases hnone.symm.trans ha
    · intro l hl
      cases hl
      refine ⟨Axes.balanced_loaded hstrays, fun hscope => ?_, vs, hvs, hno⟩
      have hskip (c : Category) (hc : c.affectsVolume = false) : c ∉ f.visited := by
        intro h
        have hmem := Flags.mem_visited h
        rw [hscope, hc] at hmem
        simp [Scope.includesPrice] at hmem
      exact List.append_eq_nil_iff.mpr ⟨hnil _ (hskip .merger rfl), hnil _ (hskip .dividend rfl)⟩

theorem load_accounts_stray :
    let s : Source := Script.source ⟨fun
      | .split => [⟨8, 2, 5⟩, ⟨7, 2, 15⟩, ⟨8, 2, 20⟩]
      | .merger => [⟨7, 0.5, 10⟩, ⟨9, 0.5, 15⟩]
      | .dividend => [⟨8, 0.5, 15⟩], some [7], true, none⟩ 3
    let x : Axes := ⟨[10, 20], [7], by decide, by decide, by decide⟩
    ((s.load x (.all .all)).perform .empty).1 = .error (.unknownAsset 9) := by
  intro s x
  have hplan : s.plan x [] (Flags.visited (.all .all)) =
      [.ask (.distinct .split ⟨10, 20⟩), .checkRoom, .ask (.fetch .split [7] ⟨10, 20⟩),
        .ask (.distinct .merger ⟨10, 20⟩), .checkRoom, .ask (.fetch .merger [7] ⟨10, 20⟩),
        .ask (.distinct .dividend ⟨10, 20⟩), .checkRoom,
        .ask (.fetch .dividend [7] ⟨10, 20⟩)] := by
    decide +kernel
  have hpass : s.Passes [] (s.plan x [] (Flags.visited (.all .all))) := by
    rw [hplan]
    exact ⟨rfl, rfl, rfl, rfl, rfl, rfl, rfl, rfl, rfl, trivial⟩
  have hasks := Run.asks_eq (s.load_of_passes x (.all .all) .empty hpass).1
  have haccounts := s.load_accounts x (.all .all) .empty (by decide)
  change s.Passes [] _ → _ at haccounts
  rw [hasks, Journal.empty, hplan] at haccounts
  exact (haccounts ⟨rfl, rfl, rfl, rfl, rfl, rfl, trivial⟩).2.1 ⟨9, 0.5, 15⟩ rfl

end Source

end AsOf
