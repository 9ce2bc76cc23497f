import AsOf.Proofs.Store.Run
import AsOf.Store.Fetch

namespace AsOf

/-- The run has one result and asks one list of queries, with whatever journal it starts. -/
def Run.Oblivious {ε α : Type} (x : Run ε α) : Prop :=
  ∃ r qs, ∀ j, (x.perform j).1 = r ∧ (x.perform j).2.asked = j.asked ++ qs

namespace Run.Oblivious

variable {ε ε' α β : Type} {x : Run ε α} {f : α → Run ε β}

theorem fst_eq (h : x.Oblivious) (j j' : Journal) : (x.perform j).1 = (x.perform j').1 := by
  obtain ⟨r, qs, h⟩ := h
  rw [(h j).1, (h j').1]

theorem ofExcept (r : Except ε α) : (Run.ofExcept r).Oblivious :=
  ⟨r, [], fun _ => ⟨rfl, (List.append_nil _).symm⟩⟩

theorem pure (a : α) : (Pure.pure a : Run ε α).Oblivious := ofExcept (.ok a)

theorem log (v : Event) : (Run.log v : Run ε Unit).Oblivious :=
  ⟨.ok (), [], fun _ => ⟨rfl, (List.append_nil _).symm⟩⟩

theorem bind (hx : x.Oblivious) (hf : ∀ a, (f a).Oblivious) : (x >>= f).Oblivious := by
  obtain ⟨r, qs, hx⟩ := hx
  cases r with
  | error e =>
    refine ⟨.error e, qs, fun j => ?_⟩
    obtain ⟨hresult, hasked⟩ := hx j
    rw [Run.perform_bind_error f (Prod.ext hresult rfl)]
    exact ⟨rfl, hasked⟩
  | ok a =>
    obtain ⟨r, qs', ha⟩ := hf a
    refine ⟨r, qs ++ qs', fun j => ?_⟩
    obtain ⟨hresult, hasked⟩ := hx j
    rw [Run.perform_bind_ok f (Prod.ext hresult rfl), ← List.append_assoc, ← hasked]
    exact ha _

theorem adapt (h : x.Oblivious) (g : ε → ε') : Run.Oblivious (x.adapt g) := by
  obtain ⟨r, qs, h⟩ := h
  refine ⟨r.mapError g, qs, fun j => ?_⟩
  rw [perform_adapt, (h j).1]
  exact ⟨rfl, (h j).2⟩

end Run.Oblivious

namespace Source.Stateless

variable {s : Source}

theorem askSids (hs : s.Stateless) (c : Category) (span : Span) :
    (s.askSids c span).Oblivious := by
  refine ⟨s.sids [] c span, [.distinct c span], fun j => ⟨?_, rfl⟩⟩
  rw [Source.perform_askSids, (hs j.asked []).1]

theorem askActions (hs : s.Stateless) (c : Category) (sids : List Int) (span : Span) :
    (s.askActions c sids span).Oblivious := by
  refine ⟨s.actions [] c sids span, [.fetch c sids span], fun j => ⟨?_, rfl⟩⟩
  rw [Source.perform_askActions, (hs j.asked []).2]

theorem resolve (hs : s.Stateless) (c : Category) (span : Span) :
    (s.resolve c span).Oblivious := by
  apply (hs.askSids c span).bind
  intro sids
  exact (Run.Oblivious.log _).bind fun _ => .pure sids

theorem fetchChunks (hs : s.Stateless) (c : Category) (span : Span) (n : Nat)
    (pieces : List (List Int)) : (s.fetchChunks c span n pieces).Oblivious := by
  induction pieces generalizing n with
  | nil => exact .pure []
  | cons sids rest ih =>
    apply (hs.askActions c sids span).bind
    intro rows
    apply (Run.Oblivious.log _).bind
    intro _
    exact (ih (n + 1)).bind fun more => .pure (rows ++ more)

theorem fetch (hs : s.Stateless) (c : Category) (candidates : List Int) (span : Span) :
    (s.fetch c candidates span).Oblivious :=
  (Run.Oblivious.ofExcept s.chunkSize).bind fun size =>
    hs.fetchChunks c span 0 (chunks size.1 size.2 (SidSet.ofList candidates).toList)

end Source.Stateless

end AsOf
