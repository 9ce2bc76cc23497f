import AsOf.Store.Source

namespace AsOf

def Journal.noting (j : Journal) (vs : List Event) : Journal := { j with events := j.events ++ vs }

@[simp] theorem Journal.noting_nil (j : Journal) : j.noting [] = j := by
  rw [noting, List.append_nil]

@[simp] theorem Journal.noting_noting (j : Journal) (vs ws : List Event) :
    (j.noting vs).noting ws = j.noting (vs ++ ws) := by
  simp only [noting, List.append_assoc]

namespace Run

variable {ε ε' α β : Type} {x : Run ε α} {a : α} {b : β} {e : ε} {j j' : Journal}

@[simp] theorem perform_pure (a : α) (j : Journal) :
    perform (pure a : Run ε α) j = (.ok a, j) := rfl

@[simp] theorem perform_throw (e : ε) (j : Journal) :
    perform (throw e : Run ε α) j = (.error e, j) := rfl

theorem perform_bind_ok (f : α → Run ε β) (h : x.perform j = (.ok a, j')) :
    (x >>= f).perform j = (f a).perform j' := by
  change ExceptT.bindCont f (x.perform j).1 (x.perform j).2 = _
  rw [h]
  rfl

theorem perform_bind_error (f : α → Run ε β) (h : x.perform j = (.error e, j')) :
    (x >>= f).perform j = (.error e, j') := by
  change ExceptT.bindCont f (x.perform j).1 (x.perform j).2 = _
  rw [h]
  rfl

/-- What a run answers, with the journal left out of sight. -/
theorem fst_perform_bind (x : Run ε α) (f : α → Run ε β) (j : Journal) :
    ((x >>= f).perform j).1 =
      (x.perform j).1.bind fun a => ((f a).perform (x.perform j).2).1 := by
  cases h : x.perform j with
  | mk r j' =>
    cases r with
    | ok a => rw [perform_bind_ok f h]; rfl
    | error e => rw [perform_bind_error f h]; rfl

theorem fst_perform_bind_ok (f : α → Run ε β) (h : (x.perform j).1 = .ok a) :
    ((x >>= f).perform j).1 = ((f a).perform (x.perform j).2).1 := by
  rw [fst_perform_bind, h]
  rfl

@[simp] theorem perform_log_bind (v : Event) (f : Unit → Run ε α) (j : Journal) :
    (Run.log v >>= f).perform j = (f ()).perform (j.noting [v]) := rfl

theorem perform_ofExcept_bind_ok (a : α) (f : α → Run ε β) (j : Journal) :
    (Run.ofExcept (.ok a) >>= f).perform j = (f a).perform j := rfl

theorem perform_adapt (f : ε → ε') (x : Run ε α) (j : Journal) :
    perform (x.adapt f) j = ((x.perform j).1.mapError f, (x.perform j).2) := rfl

end Run

namespace Source

theorem perform_askSids (s : Source) (c : Category) (span : Span) (j : Journal) :
    (s.askSids c span).perform j =
      (s.sids j.asked c span, { j with asked := j.asked ++ [.distinct c span] }) := rfl

theorem perform_askActions (s : Source) (c : Category) (sids : List Int) (span : Span)
    (j : Journal) :
    (s.askActions c sids span).perform j =
      (s.actions j.asked c sids span, { j with asked := j.asked ++ [.fetch c sids span] }) := rfl

end Source

end AsOf
