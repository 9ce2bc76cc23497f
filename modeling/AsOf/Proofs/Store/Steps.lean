import AsOf.Proofs.Store.Run
import AsOf.Store.Fetch

namespace AsOf

inductive Step where
  | ask (query : Query)
  | checkRoom
  deriving DecidableEq

def queriesOf : List Step → List Query
  | [] => []
  | .ask q :: rest => q :: queriesOf rest
  | .checkRoom :: rest => queriesOf rest

theorem queriesOf_append (steps more : List Step) :
    queriesOf (steps ++ more) = queriesOf steps ++ queriesOf more := by
  induction steps with
  | nil => rfl
  | cons step steps ih =>
    cases step with
    | ask q => exact congrArg (q :: ·) ih
    | checkRoom => exact ih

@[simp] theorem queriesOf_map_ask (qs : List Query) : queriesOf (qs.map .ask) = qs := by
  induction qs with
  | nil => rfl
  | cons q qs ih => exact congrArg (q :: ·) ih

def StoreFault.of? {α : Type} : Except StoreFault α → Option StoreFault
  | .ok _ => none
  | .error e => some e

namespace Source

variable {s : Source} {past : List Query} {steps more done rest : List Step} {step : Step}
variable {e : StoreFault}

/-- The fault of a step that is taken after some queries, if it fails. -/
def fault? (s : Source) (past : List Query) : Step → Option StoreFault
  | .ask (.distinct c span) => StoreFault.of? (s.sids past c span)
  | .ask (.fetch c sids span) => StoreFault.of? (s.actions past c sids span)
  | .checkRoom =>
    if s.maxParams ≤ rangeParams then some (.parameterLimit s.maxParams rangeParams) else none

/-- Steps that are taken one after the other after some queries all succeed. -/
def Passes (s : Source) (past : List Query) : List Step → Prop
  | [] => True
  | step :: rest => s.fault? past step = none ∧ s.Passes (past ++ queriesOf [step]) rest

theorem passes_append : s.Passes past (steps ++ more) ↔
    s.Passes past steps ∧ s.Passes (past ++ queriesOf steps) more := by
  induction steps generalizing past with
  | nil => simp [Passes, queriesOf]
  | cons step steps ih =>
    have hqueries : queriesOf (step :: steps) = queriesOf [step] ++ queriesOf steps :=
      queriesOf_append [step] steps
    rw [List.cons_append, Passes, Passes, ih, hqueries, ← List.append_assoc, and_assoc]

theorem passes_or_stops (s : Source) (past : List Query) (steps : List Step) :
    s.Passes past steps ∨ ∃ done step rest e, steps = done ++ step :: rest ∧
      s.Passes past done ∧ s.fault? (past ++ queriesOf done) step = some e := by
  induction steps generalizing past with
  | nil => exact .inl trivial
  | cons step steps ih =>
    cases hstep : s.fault? past step with
    | some e => exact .inr ⟨[], step, steps, e, rfl, trivial, by simpa [queriesOf] using hstep⟩
    | none =>
      rcases ih (past ++ queriesOf [step]) with hpass | ⟨done, bad, rest, e, rfl, hdone, hbad⟩
      · exact .inl ⟨hstep, hpass⟩
      · refine .inr ⟨step :: done, bad, rest, e, rfl, ⟨hstep, hdone⟩, ?_⟩
        rwa [List.append_assoc, ← queriesOf_append] at hbad

/-- Takes steps up to the first that fails: how that ends, and what has been asked by then. -/
def follow (s : Source) (past : List Query) : List Step → Except StoreFault Unit × List Query
  | [] => (.ok (), past)
  | step :: rest =>
    match s.fault? past step with
    | some e => (.error e, past ++ queriesOf [step])
    | none => s.follow (past ++ queriesOf [step]) rest

theorem follow_append (h : s.Passes past steps) (more : List Step) :
    s.follow past (steps ++ more) = s.follow (past ++ queriesOf steps) more := by
  induction steps generalizing past with
  | nil => simp [queriesOf]
  | cons step steps ih =>
    have hqueries : queriesOf (step :: steps) = queriesOf [step] ++ queriesOf steps :=
      queriesOf_append [step] steps
    rw [List.cons_append, follow, h.1, ih h.2, hqueries, List.append_assoc]

theorem follow_of_passes (h : s.Passes past steps) :
    s.follow past steps = (.ok (), past ++ queriesOf steps) := by
  have hfollow := follow_append h []
  rwa [List.append_nil] at hfollow

theorem follow_of_stops (h : s.Passes past done)
    (he : s.fault? (past ++ queriesOf done) step = some e) (rest : List Step) :
    s.follow past (done ++ step :: rest) = (.error e, past ++ queriesOf (done ++ [step])) := by
  rw [follow_append h, follow, he, queriesOf_append, List.append_assoc]

end Source

/-- The run follows the steps, and has the result if none of them fails. -/
structure Follows {α : Type} (s : Source) (x : Run StoreFault α) (j : Journal) (steps : List Step)
    (a : α) : Prop where
  result : (x.perform j).1 = (s.follow j.asked steps).1.map fun _ => a
  asked : (x.perform j).2.asked = (s.follow j.asked steps).2

namespace Follows

variable {α β : Type} {s : Source} {x : Run StoreFault α} {f : α → Run StoreFault β}
variable {j j' : Journal} {steps more done rest : List Step} {step : Step} {a : α} {b : β}
variable {e : StoreFault}

theorem of_passes (h : Follows s x j steps a) (hp : s.Passes j.asked steps) :
    ∃ j', x.perform j = (.ok a, j') ∧ j'.asked = j.asked ++ queriesOf steps := by
  have hresult := h.result
  have hasked := h.asked
  rw [Source.follow_of_passes hp] at hresult hasked
  exact ⟨_, Prod.ext hresult rfl, hasked⟩

theorem of_stops (h : Follows s x j (done ++ step :: rest) a) (hp : s.Passes j.asked done)
    (he : s.fault? (j.asked ++ queriesOf done) step = some e) :
    ∃ j', x.perform j = (.error e, j') ∧ j'.asked = j.asked ++ queriesOf (done ++ [step]) := by
  have hresult := h.result
  have hasked := h.asked
  rw [Source.follow_of_stops hp he] at hresult hasked
  exact ⟨_, Prod.ext hresult rfl, hasked⟩

theorem pure (s : Source) (a : α) (j : Journal) : Follows s (Pure.pure a) j [] a := ⟨rfl, rfl⟩

/-- Steps follow one another as the parts of a run do; the second part only sees what has been
asked. -/
theorem bind (hx : Follows s x j steps a)
    (hf : ∀ j', j'.asked = j.asked ++ queriesOf steps → Follows s (f a) j' more b) :
    Follows s (x >>= f) j (steps ++ more) b := by
  rcases s.passes_or_stops j.asked steps with hp | ⟨done, step, rest, e, rfl, hp, he⟩
  · obtain ⟨j', hperform, hasked⟩ := hx.of_passes hp
    have hrest := hf j' hasked
    have hfollow := Source.follow_append hp more
    rw [← hasked] at hfollow
    constructor
    · rw [Run.perform_bind_ok f hperform, hfollow, hrest.result]
    · rw [Run.perform_bind_ok f hperform, hfollow, hrest.asked]
  · obtain ⟨j', hperform, hasked⟩ := hx.of_stops hp he
    have hfollow := Source.follow_of_stops hp he (rest ++ more)
    rw [List.append_assoc, List.cons_append]
    constructor
    · rw [Run.perform_bind_error f hperform, hfollow]
      rfl
    · rw [Run.perform_bind_error f hperform, hfollow, hasked]

theorem map (hx : Follows s x j steps a) (g : α → β) :
    Follows s (x >>= fun a => Pure.pure (g a)) j steps (g a) := by
  have h := hx.bind (f := fun a => Pure.pure (g a)) fun j' _ => Follows.pure s (g a) j'
  rwa [List.append_nil] at h

theorem log (v : Event) {f : Unit → Run StoreFault α}
    (h : Follows s (f ()) (j.noting [v]) steps a) :
    Follows s (Run.log v >>= f) j steps a := ⟨h.result, h.asked⟩

theorem askSids (s : Source) (c : Category) (span : Span) (j : Journal) :
    Follows s (s.askSids c span) j [.ask (.distinct c span)]
      ((s.sids j.asked c span).toOption.getD .empty) := by
  constructor
  all_goals
    rw [Source.perform_askSids, Source.follow, Source.fault?]
    cases s.sids j.asked c span <;> rfl

theorem askActions (s : Source) (c : Category) (sids : List Int) (span : Span) (j : Journal) :
    Follows s (s.askActions c sids span) j [.ask (.fetch c sids span)]
      ((s.actions j.asked c sids span).toOption.getD []) := by
  constructor
  all_goals
    rw [Source.perform_askActions, Source.follow, Source.fault?]
    cases s.actions j.asked c sids span <;> rfl

end Follows

end AsOf
