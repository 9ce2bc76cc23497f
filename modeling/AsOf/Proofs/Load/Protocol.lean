import AsOf.Proofs.Axes
import AsOf.Proofs.Load.Assembly
import AsOf.Proofs.Load.Plan
import AsOf.Store.Script

namespace AsOf

theorem Scope.parse_unknown {text : String} (h : ∀ scope : Scope, scope.name ≠ text) :
    Scope.parse text = .error ⟨text⟩ := by
  have hprice : ¬text = "price" := fun he => h .price he.symm
  have hvolume : ¬text = "volume" := fun he => h .volume he.symm
  have hall : ¬text = "all" := fun he => h .all he.symm
  rw [Scope.parse, if_neg hprice, if_neg hvolume, if_neg hall]

def Event.completes : Event → Bool
  | .loaded .. => true
  | _ => false

/-- The run logs nothing that says that a load is complete. -/
def Run.Unfinished {ε α : Type} (x : Run ε α) : Prop :=
  ∀ j, ∃ vs, (x.perform j).2.events = j.events ++ vs ∧ ∀ v ∈ vs, v.completes = false

namespace Run.Unfinished

variable {ε ε' α β : Type} {x : Run ε α} {f : α → Run ε β}

theorem of_events (h : ∀ j, (x.perform j).2.events = j.events) : x.Unfinished := by
  intro j
  exact ⟨[], by rw [h, List.append_nil], fun v hv => by cases hv⟩

theorem log {v : Event} (h : v.completes = false) : (Run.log v : Run ε Unit).Unfinished := by
  intro j
  refine ⟨[v], rfl, fun w hw => ?_⟩
  rw [List.mem_singleton.mp hw]
  exact h

theorem bind (hx : x.Unfinished) (hf : ∀ a, (f a).Unfinished) : (x >>= f).Unfinished := by
  intro j
  obtain ⟨vs, hvs, hno⟩ := hx j
  cases h : x.perform j with
  | mk r j' =>
    rw [h] at hvs
    cases r with
    | error e =>
      rw [Run.perform_bind_error f h]
      exact ⟨vs, hvs, hno⟩
    | ok a =>
      obtain ⟨ws, hws, hno'⟩ := hf a j'
      rw [Run.perform_bind_ok f h]
      refine ⟨vs ++ ws, ?_, fun v hv => ?_⟩
      · rw [hws, hvs, List.append_assoc]
      · exact (List.mem_append.mp hv).elim (hno v) (hno' v)

end Run.Unfinished

namespace Source

variable {s : Source} {x : Axes} {q : LoadRequest} {scope : Scope}

theorem fetchChunks_unfinished (s : Source) (c : Category) (span : Span) (n : Nat)
    (pieces : List (List Int)) : (s.fetchChunks c span n pieces).Unfinished := by
  induction pieces generalizing n with
  | nil => exact .of_events fun j => rfl
  | cons sids rest ih =>
    apply Run.Unfinished.bind (.of_events fun j => rfl)
    intro rows
    apply Run.Unfinished.bind (.log rfl)
    intro _
    exact .bind (ih (n + 1)) fun more => .of_events fun j => rfl

theorem fetchCategory_unfinished (s : Source) (x : Axes) (assets : AssetIndex) (c : Category) :
    (s.fetchCategory x assets c).Unfinished := by
  have hresolve : (s.resolve c x.span).Unfinished := by
    apply Run.Unfinished.bind (.of_events fun j => rfl)
    intro sids
    exact .bind (.log rfl) fun _ => .of_events fun j => rfl
  apply hresolve.bind
  intro sids
  apply Run.Unfinished.bind (.of_events fun j => rfl)
  intro size
  exact s.fetchChunks_unfinished c x.span 0 _

theorem fetchAll_unfinished (s : Source) (x : Axes) (assets : AssetIndex) (cs : List Category) :
    (s.fetchAll x assets cs).Unfinished := by
  induction cs with
  | nil => exact .of_events fun j => rfl
  | cons c cs ih =>
    apply (s.fetchCategory_unfinished x assets c).bind
    intro rows
    apply Run.Unfinished.bind (.log rfl)
    intro _
    exact ih.bind fun more => .of_events fun j => rfl

theorem completes_of_mem_dropped {as : List Action} {v : Event}
    (h : v ∈ as.filterMap x.dropped?) : v.completes = false := by
  obtain ⟨a, -, ha⟩ := List.mem_filterMap.mp h
  unfold Axes.dropped? at ha
  split at ha <;> cases ha <;> rfl

theorem countP_completes {vs : List Event} (h : ∀ v ∈ vs, v.completes = false) :
    vs.countP Event.completes = 0 := by
  rw [List.countP_eq_zero]
  intro v hv
  simp [h v hv]

/-- A load says once that it is complete, if it is, and else never. -/
theorem load_completes (s : Source) (x : Axes) (f : Flags) (j : Journal) :
    ∃ vs, ((s.load x f).perform j).2.events = j.events ++ vs ∧
      vs.countP Event.completes = if ((s.load x f).perform j).1.isOk then 1 else 0 := by
  obtain ⟨vs, hvs, hno⟩ := s.fetchAll_unfinished x (.ofAssets x.assets) f.categories j
  cases hf : (s.fetchAll x (.ofAssets x.assets) f.categories).perform j with
  | mk r j' =>
    rw [hf] at hvs
    cases r with
    | error e =>
      rw [perform_load_of_fetch_error hf]
      exact ⟨vs, hvs, countP_completes hno⟩
    | ok fetched =>
      have hnoting (ws : List Event) : (j'.noting ws).events = j.events ++ (vs ++ ws) := by
        rw [Journal.noting, hvs, List.append_assoc]
      rcases perform_load_cases hf with ⟨a, before, -, hload⟩ | ⟨-, hload⟩
      · rw [hload]
        refine ⟨_, hnoting _, ?_⟩
        rw [List.countP_append, countP_completes hno,
          countP_completes fun v => completes_of_mem_dropped]
        rfl
      · rw [hload]
        refine ⟨_, hnoting _, ?_⟩
        rw [List.countP_append, List.countP_append, countP_completes hno,
          countP_completes fun v => completes_of_mem_dropped]
        rfl

theorem load_of_passes (s : Source) (x : Axes) (f : Flags) (j : Journal)
    (h : s.Passes j.asked (s.plan x j.asked f.visited)) :
    ((s.load x f).perform j).2.asked = j.asked ++ queriesOf (s.plan x j.asked f.visited) ∧
      ∀ e, ((s.load x f).perform j).1 ≠ .error (.store e) := by
  have hfollows := s.fetchAll_follows x f.nodup_visited j
  obtain ⟨j', hf, hasked⟩ := hfollows.of_passes h
  rw [← f.categories_eq] at hf
  rcases perform_load_cases hf with ⟨a, before, -, hload⟩ | ⟨-, hload⟩
  · rw [hload]
    exact ⟨hasked, fun e he => by cases he⟩
  · rw [hload]
    exact ⟨hasked, fun e he => by cases he⟩

theorem load_of_stops (s : Source) (x : Axes) (f : Flags) (j : Journal) {done rest : List Step}
    {step : Step} {e : StoreFault} (hplan : s.plan x j.asked f.visited = done ++ step :: rest)
    (hdone : s.Passes j.asked done) (he : s.fault? (j.asked ++ queriesOf done) step = some e) :
    ((s.load x f).perform j).1 = .error (.store e) ∧
      ((s.load x f).perform j).2.asked = j.asked ++ queriesOf (done ++ [step]) := by
  have hfollows := s.fetchAll_follows x f.nodup_visited j
  rw [hplan] at hfollows
  obtain ⟨j', hf, hasked⟩ := hfollows.of_stops hdone he
  rw [← f.categories_eq] at hf
  rw [perform_load_of_fetch_error hf]
  exact ⟨rfl, hasked⟩

theorem perform_loadRequest_unknown (s : Source) (h : ∀ scope : Scope, scope.name ≠ q.scope)
    (j : Journal) : (s.loadRequest q).perform j = (.error (.badScope ⟨q.scope⟩), j) := by
  rw [loadRequest, Scope.parse_unknown h]
  rfl

theorem perform_loadRequest_invalid (s : Source) (hscope : scope.name = q.scope)
    (h : ¬(q.dates ≠ [] ∧ q.dates.Pairwise (· < ·) ∧ q.assets.Nodup)) (j : Journal) :
    ∃ e, (s.loadRequest q).perform j = (.error (.badAxes e), j) := by
  obtain ⟨e, he⟩ := Axes.make_invalid h
  refine ⟨e, ?_⟩
  rw [loadRequest, ← hscope, Scope.parse_name, he]
  rfl

theorem perform_loadRequest (s : Source) (hscope : scope.name = q.scope)
    (hdates : x.dates = q.dates) (hassets : x.assets = q.assets) (j : Journal) :
    (s.loadRequest q).perform j =
      (s.load x ⟨q.splits, q.mergers, q.dividends, scope⟩).perform j := by
  rw [loadRequest, ← hscope, Scope.parse_name, ← hdates, ← hassets, Axes.make_self]
  rfl

/-- A request with an unknown scope fails first, then one without axes; neither asks anything. Any
other asks what its plan says, all of it if nothing fails, and else up to the first step that fails,
with the fault of that step; the plan asks for assets in consecutive pieces. Only a load that
succeeds says that it is complete, and says so once. -/
theorem load_protocol (s : Source) (q : LoadRequest) (j : Journal) :
    ((∀ scope : Scope, scope.name ≠ q.scope) →
      (s.loadRequest q).perform j = (.error (.badScope ⟨q.scope⟩), j)) ∧
    (∀ scope : Scope, scope.name = q.scope →
      (¬(q.dates ≠ [] ∧ q.dates.Pairwise (· < ·) ∧ q.assets.Nodup) →
        ∃ e, (s.loadRequest q).perform j = (.error (.badAxes e), j)) ∧
      ∀ x : Axes, x.dates = q.dates → x.assets = q.assets →
        let plan := s.plan x j.asked (Flags.visited ⟨q.splits, q.mergers, q.dividends, scope⟩)
        (s.Passes j.asked plan →
          ((s.loadRequest q).perform j).2.asked = j.asked ++ queriesOf plan ∧
            ∀ e, ((s.loadRequest q).perform j).1 ≠ .error (.store e)) ∧
        ∀ done step rest e, plan = done ++ step :: rest → s.Passes j.asked done →
          s.fault? (j.asked ++ queriesOf done) step = some e →
            ((s.loadRequest q).perform j).1 = .error (.store e) ∧
              ((s.loadRequest q).perform j).2.asked = j.asked ++ queriesOf (done ++ [step])) ∧
    (∀ sids, rangeParams < s.maxParams → (s.pieces sids).flatten = sids ∧
      ∀ piece ∈ s.pieces sids, piece ≠ [] ∧ piece.length + rangeParams ≤ s.maxParams) ∧
    ∃ vs, ((s.loadRequest q).perform j).2.events = j.events ++ vs ∧
      vs.countP Event.completes =
        if ((s.loadRequest q).perform j).1.isOk then 1 else 0 := by
  refine ⟨fun hscope => s.perform_loadRequest_unknown hscope j, ?_,
    fun sids hm => pieces_cut hm sids, ?_⟩
  · intro scope hscope
    refine ⟨fun haxes => s.perform_loadRequest_invalid hscope haxes j, ?_⟩
    intro x hdates hassets plan
    rw [s.perform_loadRequest hscope hdates hassets]
    refine ⟨fun hpass => s.load_of_passes x _ j hpass, ?_⟩
    intro done step rest e hplan hdone he
    exact s.load_of_stops x _ j hplan hdone he
  · by_cases hscope : ∃ scope : Scope, scope.name = q.scope
    · obtain ⟨scope, hscope⟩ := hscope
      by_cases haxes : q.dates ≠ [] ∧ q.dates.Pairwise (· < ·) ∧ q.assets.Nodup
      · obtain ⟨hdates, hrise, hassets⟩ := haxes
        rw [s.perform_loadRequest (x := ⟨q.dates, q.assets, hdates, hrise, hassets⟩) hscope rfl rfl]
        exact s.load_completes _ _ j
      · obtain ⟨e, he⟩ := s.perform_loadRequest_invalid hscope haxes j
        rw [he]
        exact ⟨[], (List.append_nil _).symm, rfl⟩
    · rw [s.perform_loadRequest_unknown (fun scope he => hscope ⟨scope, he⟩) j]
      exact ⟨[], (List.append_nil _).symm, rfl⟩

theorem load_protocol_second_piece :
    let s : Source := Script.source ⟨fun
      | .split => [⟨7, 2, 10⟩, ⟨9, 2, 10⟩, ⟨5, 2, 10⟩]
      | _ => [⟨5, 0.5, 10⟩], none, false, some (2, "disk I/O error")⟩ 3
    let q : LoadRequest := ⟨[10, 20], [7, 5], true, true, true, "all"⟩
    ((s.loadRequest q).perform .empty).1 = .error (.store (.backend "disk I/O error")) ∧
      ((s.loadRequest q).perform .empty).2.asked =
        [.distinct .split ⟨10, 20⟩, .fetch .split [5] ⟨10, 20⟩, .fetch .split [7] ⟨10, 20⟩] := by
  intro s q
  let x : Axes := ⟨[10, 20], [7, 5], by decide, by decide, by decide⟩
  let rest : List Step := [.ask (.distinct .merger ⟨10, 20⟩), .checkRoom,
    .ask (.fetch .merger [5] ⟨10, 20⟩), .ask (.distinct .dividend ⟨10, 20⟩), .checkRoom,
    .ask (.fetch .dividend [5] ⟨10, 20⟩)]
  have hplan : s.plan x [] (Flags.visited ⟨true, true, true, .all⟩) =
      [.ask (.distinct .split ⟨10, 20⟩), .checkRoom, .ask (.fetch .split [5] ⟨10, 20⟩)] ++
        .ask (.fetch .split [7] ⟨10, 20⟩) :: rest := by
    decide +kernel
  have hprotocol := ((load_protocol s q .empty).2.1 .all rfl).2 x rfl rfl
  exact hprotocol.2 _ _ rest _ hplan ⟨rfl, rfl, rfl, trivial⟩ rfl

end Source

end AsOf
