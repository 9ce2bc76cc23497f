import AsOf.Proofs.Store.ChunkedFetch

namespace AsOf

theorem mapError_eq_ok_iff {ε ε' α : Type} {f : ε → ε'} {x : Except ε α} {a : α} :
    x.mapError f = .ok a ↔ x = .ok a := by
  cases x <;> simp [Except.mapError]

namespace Database

variable {db : Database} {records : Category → List Action} {c : Category} {span : Span}
variable {found : SidSet} {sids wanted : List Int}

theorem fst_resolve (db : Database) (m : Nat) (c : Category) (span : Span) (j : Journal) :
    (((db.source m).resolve c span).perform j).1 = (db.sids c span).mapError .database := by
  rw [Source.resolve, Run.fst_perform_bind, Source.perform_askSids]
  change ((db.sids c span).mapError StoreFault.database).bind _ = _
  cases db.sids c span <;> rfl

namespace Holds

theorem mem_found_iff (h : db.Holds records) (hf : db.sids c span = .ok found) {a : Int} :
    a ∈ found ↔ ∃ r ∈ records c, r.sid = a ∧ span.contains r.effective := by
  obtain ⟨found', hf', hmem⟩ := h.sids c span
  rw [hf] at hf'
  cases hf'
  exact hmem a

theorem mem_found_iff_rowsOf_ne_nil (h : db.Holds records) (hf : db.sids c span = .ok found)
    {a : Int} : a ∈ found ↔ ∃ rows, db.rowsOf c [a] span = .ok rows ∧ rows ≠ [] := by
  have hwanted (r : Action) : r ∈ arrange Action.key
        ((records c).filter fun r => decide (r.sid ∈ [a]) && span.contains r.effective) ↔
      r ∈ records c ∧ r.sid = a ∧ span.contains r.effective := by
    simp [-Span.contains_iff]
  rw [h.mem_found_iff hf, h.rowsOf]
  constructor
  · rintro ⟨r, hr⟩
    exact ⟨_, rfl, List.ne_nil_of_mem ((hwanted r).mpr hr)⟩
  · rintro ⟨rows, hrows, hne⟩
    cases hrows
    obtain ⟨r, hr⟩ := List.exists_mem_of_ne_nil _ hne
    exact ⟨r, (hwanted r).mp hr⟩

theorem rowsOf_found (h : db.Holds records) (hf : db.sids c span = .ok found)
    (hwanted : ∀ a, a ∈ wanted ↔ a ∈ found ∧ a ∈ sids) :
    db.rowsOf c wanted span = db.rowsOf c sids span := by
  rw [h.rowsOf, h.rowsOf]
  refine congrArg Except.ok (congrArg _ (List.filter_congr fun r hr => ?_))
  cases hspan : span.contains r.effective with
  | false => rw [Bool.and_false, Bool.and_false]
  | true =>
    have hfound : r.sid ∈ found := (h.mem_found_iff hf).mpr ⟨r, hr, rfl, hspan⟩
    simp only [hwanted, hfound, true_and]

end Holds

/-- If assets are looked for first and those found among the given ones are then fetched, in
whatever order, this brings the same actions in the same order as a fetch of all the given ones,
unless that is refused for the number of its variables; and the assets found are those of which a
fetch of one asset alone brings something. -/
theorem resolve_loses_nothing (h : db.Holds records) {m : Nat} (hm : 3 ≤ m) (c : Category)
    (span : Span) (sids : List Int) (j : Journal) :
    let s := db.source m
    let count := (SidSet.ofList sids).size
    ∃ found, ((s.resolve c span).perform j).1 = .ok found ∧
      (db.limit.Admits m count → ∀ wanted : List Int, (∀ a, a ∈ wanted ↔ a ∈ found ∧ a ∈ sids) →
        ∀ j₁ j₂, ∃ rows, ((s.fetch c wanted span).perform j₁).1 = .ok rows ∧
          ((s.fetch c sids span).perform j₂).1 = .ok rows) ∧
      (¬db.limit.Admits m count → ∀ j', ((s.fetch c sids span).perform j').1 =
        .error (.database (.tooManyVariables c (min (m - 2) count) db.limit.count))) ∧
      ∀ a j', a ∈ found ↔
        ∃ rows, ((s.askActions c [a] span).perform j').1 = .ok rows ∧ rows ≠ [] := by
  intro s count
  obtain ⟨found, hf, -⟩ := h.sids c span
  refine ⟨found, ?_, fun hroom wanted hwanted j₁ j₂ => ?_,
    fun hroom j' => fst_fetch_refused db c sids span j' hm hroom, fun a j' => ?_⟩
  · rw [fst_resolve, hf]
    rfl
  · have hfewer : (SidSet.ofList wanted).size ≤ count :=
      SidSet.size_ofList_mono fun a ha => ((hwanted a).mp ha).2
    rw [fst_fetch db c wanted span j₁ hm (hroom.mono hfewer), fst_fetch db c sids span j₂ hm hroom,
      h.rowsOf_found hf hwanted, h.rowsOf]
    exact ⟨_, rfl, rfl⟩
  · have hone : [a].length + rangeParams ≤ db.limit.count := by
      rw [List.length_singleton, Nat.add_comm]
      exact db.limit.rangeParams_lt
    rw [h.mem_found_iff_rowsOf_ne_nil hf, fst_askActions, actions_eq_rowsOf hone]
    simp only [mapError_eq_ok_iff]

/-- The assets 3 and 7 have their only actions just outside the range, and are not found. Without
them the two assets that remain are fetched in other chunks than before, with the same answer. -/
theorem resolve_loses_nothing_edges :
    let records : Category → List Action := fun
      | .split => [⟨9, 2, 20⟩, ⟨5, 3, 20⟩, ⟨7, 4, 21⟩, ⟨5, 0.5, 10⟩, ⟨3, 8, 9⟩]
      | _ => []
    let s := (holding records).source 4
    (holding records).Holds records ∧ 3 ≤ 4 ∧
      (holding records).limit.Admits 4 (SidSet.ofList [9, 3, 7, 5, 9]).size ∧
      ∃ found, ((s.resolve .split ⟨10, 20⟩).perform .empty).1 = .ok found ∧
        (∀ a, a ∈ found ↔ a = 5 ∨ a = 9) ∧
        ((s.fetch .split [9, 5] ⟨10, 20⟩).perform .empty).1 =
          ((s.fetch .split [9, 3, 7, 5, 9] ⟨10, 20⟩).perform .empty).1 ∧
        ((s.fetch .split [9, 5] ⟨10, 20⟩).perform .empty).1 =
          .ok [⟨5, 0.5, 10⟩, ⟨5, 3, 20⟩, ⟨9, 2, 20⟩] := by
  intro records s
  have hholds : (holding records).Holds records := holds_holding records
  have hroom (n : Nat) : (holding records).limit.Admits 4 n :=
    VariableLimit.admits_of_le (by decide) (by decide)
  obtain ⟨found, hresolve, hfetch, -⟩ := resolve_loses_nothing hholds (m := 4) (by decide)
    .split ⟨10, 20⟩ [9, 3, 7, 5, 9] .empty
  have hsids := hresolve
  rw [fst_resolve, mapError_eq_ok_iff] at hsids
  have hmem (a : Int) : a ∈ found ↔ a = 5 ∨ a = 9 := by
    rw [hholds.mem_found_iff hsids]
    simp [records]
    omega
  have hwanted (a : Int) : a ∈ [9, 5] ↔ a ∈ found ∧ a ∈ [9, 3, 7, 5, 9] := by
    rw [hmem]
    simp
    omega
  obtain ⟨rows, hsome, hall⟩ := hfetch (hroom _) [9, 5] hwanted .empty .empty
  refine ⟨hholds, by decide, hroom _, found, hresolve, hmem, hsome.trans hall.symm, ?_⟩
  rw [fst_fetch _ _ _ _ _ (by decide) (hroom _), hholds.rowsOf, mapError_eq_ok_iff]
  simp [records, arrange, List.mergeSort, List.MergeSort.Internal.splitInTwo, Action.key,
    Prod.Lex.toLex_le_toLex]

/-- With a parameter limit above that of the database, a fetch of all the assets is refused though
the one that is found can be fetched. -/
theorem resolve_loses_nothing_refused :
    let records : Category → List Action := fun
      | .split => [⟨7, 2, 10⟩]
      | _ => []
    let s := (holding records).source 40000
    ∃ found, ((s.resolve .split ⟨0, 20⟩).perform .empty).1 = .ok found ∧
      (∀ a, a ∈ [7] ↔ a ∈ found ∧ a ∈ firstSids 32765) ∧
      ((s.fetch .split [7] ⟨0, 20⟩).perform .empty).1 = .ok [⟨7, 2, 10⟩] ∧
      ((s.fetch .split (firstSids 32765) ⟨0, 20⟩).perform .empty).1 =
        .error (.database (.tooManyVariables .split 32765 32766)) := by
  intro records s
  have hholds : (holding records).Holds records := holds_holding records
  obtain ⟨found, hsids, hmem⟩ := hholds.sids .split ⟨0, 20⟩
  have hfound (a : Int) : a ∈ found ↔ a = 7 := by
    rw [hmem]
    constructor
    · rintro ⟨r, hr, rfl, -⟩
      rw [List.mem_singleton.mp hr]
    · rintro rfl
      exact ⟨⟨7, 2, 10⟩, List.mem_singleton_self _, rfl, rfl⟩
  have hseven : (7 : Int) ∈ firstSids 32765 := mem_firstSids.mpr (by omega)
  have hcount : (SidSet.ofList (firstSids 32765)).size = 32765 := by
    rw [SidSet.size_ofList (firstSids_ascending _), length_firstSids]
  refine ⟨found, ?_, fun a => ?_, ?_, ?_⟩
  · rw [fst_resolve, hsids]
    rfl
  · rw [hfound, List.mem_singleton]
    exact ⟨fun ha => ⟨ha, ha ▸ hseven⟩, And.left⟩
  · rw [fst_fetch _ _ _ _ _ (by decide) (VariableLimit.admits_of_add_le (by decide)),
      hholds.rowsOf]
    simp [records, arrange, Except.mapError]
  · rw [fst_fetch_refused _ _ _ _ _ (by decide), hcount]
    · rfl
    · rw [hcount]
      decide

end Database

end AsOf
