import AsOf.Load
import AsOf.Proofs.Indexes
import AsOf.Proofs.Store.Steps

namespace AsOf

/-- The kinds that a load visits: mergers and dividends only for prices. -/
def Flags.visited (f : Flags) : List Category :=
  (if f.splits then [.split] else []) ++
    (if f.mergers && f.scope.includesPrice then [.merger] else []) ++
    (if f.dividends && f.scope.includesPrice then [.dividend] else [])

theorem Flags.categories_eq (f : Flags) : f.categories = f.visited := by
  obtain ⟨splits, mergers, dividends, scope⟩ := f
  cases splits <;> cases mergers <;> cases dividends <;> cases scope <;> rfl

theorem Flags.nodup_visited (f : Flags) : f.visited.Nodup := by
  rw [← f.categories_eq]
  exact (Category.nodup_all.filter _).filter _

def Query.category : Query → Category
  | .distinct c _ => c
  | .fetch c _ _ => c

namespace Source

variable {s : Source} {x : Axes} {c d : Category} {span : Span} {past : List Query}
variable {qs rs : List Query} {cs : List Category}

def returned (s : Source) (c : Category) (past : List Query) : List Query → List Action
  | [] => []
  | .distinct d span :: rest => s.returned c (past ++ [.distinct d span]) rest
  | .fetch d sids span :: rest =>
    (if d = c then (s.actions past d sids span).toOption.getD [] else []) ++
      s.returned c (past ++ [.fetch d sids span]) rest

theorem returned_append (s : Source) (c : Category) (past qs rs : List Query) :
    s.returned c past (qs ++ rs) = s.returned c past qs ++ s.returned c (past ++ qs) rs := by
  induction qs generalizing past with
  | nil => simp [returned]
  | cons q qs ih =>
    have hpast : past ++ q :: qs = past ++ [q] ++ qs := List.append_cons past q qs
    rw [hpast]
    cases q with
    | distinct d span => exact ih _
    | fetch d sids span => rw [List.cons_append, returned, returned, ih, ← List.append_assoc]

theorem returned_eq_nil (past : List Query) (h : ∀ q ∈ qs, q.category ≠ c) :
    s.returned c past qs = [] := by
  induction qs generalizing past with
  | nil => rfl
  | cons q qs ih =>
    have hq : q.category ≠ c := h q List.mem_cons_self
    have hrest (past : List Query) : s.returned c past qs = [] :=
      ih past fun r hr => h r (List.mem_cons_of_mem _ hr)
    cases q with
    | distinct d span => exact hrest _
    | fetch d sids span =>
      have hd : ¬d = c := hq
      rw [returned, hrest, if_neg hd]
      rfl

/-- The pieces in which a source can be asked for assets; none if it has no room for any. -/
def pieces (s : Source) (sids : List Int) : List (List Int) :=
  match s.chunkSize with
  | .ok ⟨size, h⟩ => chunks size h sids
  | .error _ => []

theorem pieces_cut (hm : rangeParams < s.maxParams) (sids : List Int) :
    (s.pieces sids).flatten = sids ∧
      ∀ piece ∈ s.pieces sids, piece ≠ [] ∧ piece.length + rangeParams ≤ s.maxParams := by
  rw [pieces, s.chunkSize_eq hm]
  refine ⟨flatten_chunks _ _ sids, fun piece hp => ?_⟩
  obtain ⟨hne, hlength⟩ := mem_chunks hp
  exact ⟨hne, by omega⟩

/-- The assets on the axis that a source names for a kind after some queries, ascending. -/
def wanted (s : Source) (x : Axes) (past : List Query) (c : Category) : List Int :=
  ((s.sids past c x.span).toOption.getD .empty).toList.filter (· ∈ x.assets)

theorem wanted_ascending (s : Source) (x : Axes) (past : List Query) (c : Category) :
    (s.wanted x past c).Pairwise (· < ·) := (SidSet.ascending _).filter _

def planFor (s : Source) (x : Axes) (past : List Query) (c : Category) : List Step :=
  .ask (.distinct c x.span) :: .checkRoom ::
    (s.pieces (s.wanted x past c)).map fun sids => .ask (.fetch c sids x.span)

/-- The steps that fetch the actions of several kinds, kind by kind. -/
def plan (s : Source) (x : Axes) (past : List Query) : List Category → List Step
  | [] => []
  | c :: rest => s.planFor x past c ++ s.plan x (past ++ queriesOf (s.planFor x past c)) rest

theorem queriesOf_map_fetch (c : Category) (span : Span) (pieces : List (List Int)) :
    queriesOf (pieces.map fun sids => .ask (.fetch c sids span)) =
      pieces.map fun sids => .fetch c sids span := by
  have h := queriesOf_map_ask (pieces.map fun sids => .fetch c sids span)
  rwa [List.map_map] at h

theorem category_of_mem_planFor {q : Query} (h : q ∈ queriesOf (s.planFor x past c)) :
    q.category = c := by
  rw [planFor, queriesOf, queriesOf, queriesOf_map_fetch] at h
  rcases List.mem_cons.mp h with rfl | h
  · rfl
  · obtain ⟨sids, -, rfl⟩ := List.mem_map.mp h
    rfl

theorem category_of_mem_plan {q : Query} (h : q ∈ queriesOf (s.plan x past cs)) :
    q.category ∈ cs := by
  induction cs generalizing past with
  | nil => cases h
  | cons c cs ih =>
    rw [plan, queriesOf_append] at h
    rcases List.mem_append.mp h with h | h
    · rw [category_of_mem_planFor h]
      exact List.mem_cons_self
    · exact List.mem_cons_of_mem _ (ih h)

theorem fetchChunks_follows (s : Source) (c : Category) (span : Span) (n : Nat)
    (pieces : List (List Int)) (j : Journal) :
    Follows s (s.fetchChunks c span n pieces) j
      (pieces.map fun sids => .ask (.fetch c sids span))
      (s.returned c j.asked (pieces.map fun sids => .fetch c sids span)) := by
  induction pieces generalizing n j with
  | nil => exact .pure s [] j
  | cons sids rest ih =>
    apply (Follows.askActions s c sids span j).bind
    intro j' hj'
    rw [List.map_cons, returned, if_pos rfl]
    rw [← show j'.asked = j.asked ++ [.fetch c sids span] from hj']
    exact .log _ ((ih (n + 1) _).map _)

theorem fetch_follows (s : Source) (c : Category) (candidates : List Int) (span : Span)
    (j : Journal) :
    let pieces := s.pieces (SidSet.ofList candidates).toList
    Follows s (s.fetch c candidates span) j
      (.checkRoom :: pieces.map fun sids => .ask (.fetch c sids span))
      (s.returned c j.asked (pieces.map fun sids => .fetch c sids span)) := by
  intro pieces
  rcases Nat.lt_or_ge rangeParams s.maxParams with h | h
  · have hfault : s.fault? j.asked .checkRoom = none := if_neg (Nat.not_le.mpr h)
    have hchunks := s.fetchChunks_follows c span 0 pieces j
    have hfetch : (s.fetch c candidates span).perform j =
        (s.fetchChunks c span 0 pieces).perform j := by
      unfold pieces Source.pieces
      rw [fetch, s.chunkSize_eq h, Run.perform_ofExcept_bind_ok]
    constructor
    · rw [hfetch, hchunks.result, follow, hfault, queriesOf, queriesOf, List.append_nil]
    · rw [hfetch, hchunks.asked, follow, hfault, queriesOf, queriesOf, List.append_nil]
  · have hfault : s.fault? j.asked .checkRoom =
        some (.parameterLimit s.maxParams rangeParams) := if_pos h
    have hfetch : (s.fetch c candidates span).perform j =
        (.error (.parameterLimit s.maxParams rangeParams), j) := by
      rw [fetch, s.chunkSize_eq_error h]
      rfl
    constructor
    · rw [hfetch, follow, hfault]
      rfl
    · rw [hfetch, follow, hfault, queriesOf, queriesOf, List.append_nil]

theorem resolve_follows (s : Source) (c : Category) (span : Span) (j : Journal) :
    Follows s (s.resolve c span) j [.ask (.distinct c span)]
      ((s.sids j.asked c span).toOption.getD .empty) := by
  have h := (Follows.askSids s c span j).bind
    (f := fun sids => Run.log (.resolved c span sids.size) >>= fun _ => pure sids)
    fun j' _ => .log _ (.pure s _ _)
  exact h

theorem fetchCategory_follows (s : Source) (x : Axes) (c : Category) (j : Journal) :
    Follows s (s.fetchCategory x (.ofAssets x.assets) c) j (s.planFor x j.asked c)
      (s.returned c j.asked (queriesOf (s.planFor x j.asked c))) := by
  apply (resolve_follows s c x.span j).bind
  intro j' hj'
  have hfetch := fetch_follows s c (((s.sids j.asked c x.span).toOption.getD .empty).toList.filter
    (AssetIndex.ofAssets x.assets).contains) x.span j'
  have hwanted : ((s.sids j.asked c x.span).toOption.getD .empty).toList.filter
      (AssetIndex.ofAssets x.assets).contains = s.wanted x j.asked c :=
    List.filter_congr fun a _ => AssetIndex.contains_ofAssets
  rw [hwanted, SidSet.toList_ofList (s.wanted_ascending x j.asked c)] at hfetch
  rw [planFor, queriesOf, queriesOf, queriesOf_map_fetch, returned, hwanted]
  rw [← show j'.asked = j.asked ++ [.distinct c x.span] from hj']
  exact hfetch

/-- A load fetches the actions of several kinds as planned. -/
theorem fetchAll_follows (s : Source) (x : Axes) (hcs : cs.Nodup) (j : Journal) :
    Follows s (s.fetchAll x (.ofAssets x.assets) cs) j (s.plan x j.asked cs)
      (cs.map fun c => (c, s.returned c j.asked (queriesOf (s.plan x j.asked cs)))) := by
  induction cs generalizing j with
  | nil => exact .pure s [] j
  | cons c cs ih =>
    obtain ⟨hc, hcs⟩ := List.nodup_cons.mp hcs
    apply (fetchCategory_follows s x c j).bind
    intro j' hj'
    rw [← hj']
    have hrest := ih hcs (j'.noting [.fetched c
      (s.returned c j.asked (queriesOf (s.planFor x j.asked c))).length])
    -- What is returned for a kind is returned by the queries about that kind.
    have hvalue : (c :: cs).map (fun d => (d, s.returned d j.asked (queriesOf
          (s.plan x j.asked (c :: cs))))) =
        (c, s.returned c j.asked (queriesOf (s.planFor x j.asked c))) ::
          cs.map fun d => (d, s.returned d j'.asked (queriesOf (s.plan x j'.asked cs))) := by
      rw [List.map_cons, plan, queriesOf_append, ← hj']
      congr 1
      · rw [returned_append, ← hj', returned_eq_nil j'.asked, List.append_nil]
        intro q hq he
        exact hc (he ▸ category_of_mem_plan hq)
      · apply List.map_congr_left
        intro d hd
        rw [returned_append, ← hj', returned_eq_nil j.asked, List.nil_append]
        intro q hq he
        rw [category_of_mem_planFor hq] at he
        exact hc (he ▸ hd)
    rw [hvalue]
    exact .log _ (hrest.map _)

end Source

end AsOf
