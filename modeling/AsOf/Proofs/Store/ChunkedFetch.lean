import AsOf.Proofs.Store.Contents
import AsOf.Proofs.Store.Run
import AsOf.Store.Fetch

namespace AsOf

theorem mapError_bind {ε ε' α β : Type} (f : ε → ε') (x : Except ε α) (g : α → Except ε β) :
    (x.bind g).mapError f = (x.mapError f).bind fun a => (g a).mapError f := by
  cases x <;> rfl

theorem mapM_ok_or_first_error {α β ε : Type} (f : α → Except ε β) (l : List α) :
    (∃ bs, l.map f = bs.map .ok ∧ l.mapM f = .ok bs) ∨
      ∃ before x after e, l = before ++ x :: after ∧ (∀ y ∈ before, ∃ b, f y = .ok b) ∧
        f x = .error e ∧ l.mapM f = .error e := by
  induction l with
  | nil => exact .inl ⟨[], rfl, rfl⟩
  | cons x l ih =>
    rw [List.mapM_cons]
    cases hx : f x with
    | error e => exact .inr ⟨[], x, l, e, rfl, by simp, hx, rfl⟩
    | ok b =>
      rcases ih with ⟨bs, hmap, hm⟩ | ⟨before, y, after, e, rfl, hbefore, hy, hm⟩
      · refine .inl ⟨b :: bs, ?_, ?_⟩
        · rw [List.map_cons, List.map_cons, hx, hmap]
        · rw [hm]
          rfl
      · refine .inr ⟨x :: before, y, after, e, rfl, ?_, hy, ?_⟩
        · intro z hz
          rcases List.mem_cons.mp hz with rfl | hz
          · exact ⟨b, hx⟩
          · exact hbefore z hz
        · rw [hm]
          rfl

theorem ok_of_mapM_ok {α β ε : Type} {f : α → Except ε β} {l : List α} {bs : List β}
    (h : l.mapM f = .ok bs) : ∀ a ∈ l, ∃ b, f a = .ok b := by
  intro a ha
  rcases mapM_ok_or_first_error f l with ⟨bs', hmap, -⟩ | ⟨-, -, -, e, -, -, -, he⟩
  · have hfa : f a ∈ bs'.map .ok := hmap ▸ List.mem_map_of_mem ha
    obtain ⟨b, -, hb⟩ := List.mem_map.mp hfa
    exact ⟨b, hb.symm⟩
  · cases h.symm.trans he

theorem Source.perform_fetch_of_lt {s : Source} (h : rangeParams < s.maxParams) (c : Category)
    (candidates : List Int) (span : Span) (j : Journal) :
    (s.fetch c candidates span).perform j = (s.fetchChunks c span 0
      (chunks (s.maxParams - rangeParams) (Nat.sub_pos_of_lt h)
        (SidSet.ofList candidates).toList)).perform j := by
  rw [fetch, s.chunkSize_eq h, Run.perform_ofExcept_bind_ok]

namespace Database

variable {db : Database} {c : Category} {m : Nat} {candidates : List Int} {span : Span}

theorem fst_askActions (db : Database) (m : Nat) (c : Category) (sids : List Int) (span : Span)
    (j : Journal) :
    (((db.source m).askActions c sids span).perform j).1 =
      (db.actions c sids span).mapError .database := rfl

theorem fst_fetchChunks (db : Database) (m : Nat) (c : Category) (span : Span) (n : Nat)
    (j : Journal) {chunks : List (List Int)} (h : chunks.flatten.Pairwise (· < ·))
    (hroom : ∀ sids ∈ chunks, sids.length + rangeParams ≤ db.limit.count) :
    (((db.source m).fetchChunks c span n chunks).perform j).1 =
      (db.rowsOf c chunks.flatten span).mapError .database := by
  induction chunks generalizing n j with
  | nil => rfl
  | cons sids rest ih =>
    obtain ⟨hhead, htail⟩ := List.forall_mem_cons.mp hroom
    rw [List.flatten_cons] at h ⊢
    obtain ⟨-, hrest, hlt⟩ := List.pairwise_append.mp h
    rw [rowsOf_append hlt]
    change _ = ((db.rowsOf c sids span).bind fun a =>
      (db.rowsOf c rest.flatten span).bind fun b => .ok (a ++ b)).mapError StoreFault.database
    rw [mapError_bind, Source.fetchChunks, Run.fst_perform_bind, fst_askActions,
      actions_eq_rowsOf hhead]
    congr 1
    funext rows
    rw [Run.perform_log_bind, Run.fst_perform_bind, ih _ _ hrest htail, mapError_bind]
    rfl

theorem length_le_of_mem_chunks {α : Type} {size : Nat} {h : 0 < size} {l piece : List α}
    (hp : piece ∈ chunks size h l) : piece.length ≤ min size l.length := by
  have hsub : piece.Sublist (chunks size h l).flatten := List.sublist_flatten_of_mem hp
  rw [flatten_chunks] at hsub
  exact Nat.le_min.mpr ⟨(mem_chunks hp).2, hsub.length_le⟩

theorem fst_fetch (db : Database) (c : Category) (candidates : List Int) (span : Span)
    (j : Journal) (h : rangeParams < m)
    (hroom : db.limit.Admits m (SidSet.ofList candidates).size) :
    (((db.source m).fetch c candidates span).perform j).1 =
      (db.rowsOf c candidates span).mapError .database := by
  rw [Source.perform_fetch_of_lt (s := db.source m) h]
  have hflat := flatten_chunks (m - rangeParams) (Nat.sub_pos_of_lt h)
    (SidSet.ofList candidates).toList
  have hasc := (SidSet.ofList candidates).ascending
  rw [← hflat] at hasc
  have hpieces : ∀ piece ∈ chunks (m - rangeParams) (Nat.sub_pos_of_lt h)
      (SidSet.ofList candidates).toList, piece.length + rangeParams ≤ db.limit.count :=
    fun piece hp =>
      (Nat.add_le_add_right (length_le_of_mem_chunks hp) rangeParams).trans hroom
  have hfetch := fst_fetchChunks db m c span 0 j hasc hpieces
  rw [hflat, rowsOf_congr fun a => SidSet.mem_ofList] at hfetch
  exact hfetch

/-- If a statement of a fetch has too many variables, then the first has. -/
theorem fst_fetch_refused (db : Database) (c : Category) (candidates : List Int) (span : Span)
    (j : Journal) (h : rangeParams < m)
    (hroom : ¬db.limit.Admits m (SidSet.ofList candidates).size) :
    (((db.source m).fetch c candidates span).perform j).1 =
      .error (.database (.tooManyVariables c (min (m - rangeParams) (SidSet.ofList candidates).size)
        db.limit.count)) := by
  have hlimit := db.limit.rangeParams_lt
  generalize hsids : (SidSet.ofList candidates).toList = sids
  have hcount : (SidSet.ofList candidates).size = sids.length := congrArg List.length hsids
  rw [hcount] at hroom ⊢
  have hfirst : db.limit.count < (sids.take (m - rangeParams)).length + rangeParams := by
    rw [List.length_take]
    exact Nat.not_le.mp hroom
  have hsome : sids ≠ [] := by
    rintro rfl
    simp only [List.take_nil, List.length_nil] at hfirst
    omega
  rw [Source.perform_fetch_of_lt (s := db.source m) h, hsids, chunks_of_ne_nil _ hsome]
  change (((db.source m).fetchChunks c span 0 (sids.take (m - rangeParams) :: _)).perform j).1 = _
  rw [Source.fetchChunks, Run.fst_perform_bind, fst_askActions, actions_eq_error hfirst,
    List.length_take]
  rfl

/-- A chunked fetch is one query, if that does not have too many variables: it finds the same rows
in the same order or fails with the same fault, whatever the parameter limit and however the assets
are listed. -/
theorem fetch_eq_single_query (db : Database) (c : Category) (candidates : List Int) (span : Span)
    (j : Journal) (hm : 3 ≤ m) (hroom : candidates.length + 2 ≤ db.limit.count) :
    let answer := (((db.source m).fetch c candidates span).perform j).1
    answer = (((db.source m).askActions c candidates span).perform j).1 ∧
    (db.table? c = none → candidates ≠ [] → answer = .error (.database (.noTable c))) ∧
    (∀ t, db.table? c = some t → ∃ rows,
      Arranged Row.key (t.rows.filter (Row.matching candidates span)) rows ∧
        ((∃ as, rows.map Row.decode = as.map .ok ∧ answer = .ok as) ∨
          ∃ before r after e, rows = before ++ r :: after ∧ (∀ q ∈ before, ∃ a, q.decode = .ok a) ∧
            r.decode = .error e ∧ answer = .error (.database e))) ∧
    (∀ t records, db.table? c = some t → t.Holds records → ∃ as, answer = .ok as ∧
      Arranged Action.key
        (records.filter fun a => decide (a.sid ∈ candidates) && span.contains a.effective) as) ∧
    ∀ m' candidates' j', 3 ≤ m' → (∀ a, a ∈ candidates' ↔ a ∈ candidates) →
      (((db.source m').fetch c candidates' span).perform j').1 = answer := by
  intro answer
  have hadmits (m : Nat) : db.limit.Admits m (SidSet.ofList candidates).size :=
    VariableLimit.admits_of_add_le
      ((Nat.add_le_add_right (SidSet.size_ofList_le candidates) 2).trans hroom)
  have hanswer : answer = (db.rowsOf c candidates span).mapError .database :=
    fst_fetch db c candidates span j hm (hadmits m)
  refine ⟨?_, ?_, ?_, ?_, ?_⟩
  · rw [hanswer, fst_askActions, actions_eq_rowsOf hroom]
  · intro ht hne
    rw [hanswer, rowsOf_of_no_table ht hne]
    rfl
  · intro t ht
    rw [hanswer, rowsOf_of_table ht, Table.actions, Table.select_eq]
    refine ⟨_, arranged_arrange _ _, ?_⟩
    rcases mapM_ok_or_first_error Row.decode
        (arrange Row.key (t.rows.filter (Row.matching candidates span))) with
      ⟨as, hmap, hm⟩ | ⟨before, r, after, e, hrows, hbefore, hr, hm⟩
    · exact .inl ⟨as, hmap, by rw [hm]; rfl⟩
    · exact .inr ⟨before, r, after, e, hrows, hbefore, hr, by rw [hm]; rfl⟩
  · intro t records ht hholds
    rw [hanswer, rowsOf_of_table ht, hholds.actions]
    exact ⟨_, rfl, arranged_arrange _ _⟩
  · intro m' candidates' j' hm' hmem
    have hsame : SidSet.ofList candidates' = SidSet.ofList candidates :=
      SidSet.ext_mem fun a => by rw [SidSet.mem_ofList, SidSet.mem_ofList, hmem]
    rw [fst_fetch db c candidates' span j' hm' (hsame ▸ hadmits m'), hanswer, rowsOf_congr hmem]

theorem fetch_eq_single_query_undecodable :
    let t : Table := ⟨false, false, [⟨.integer 2, .text "2", .integer 5⟩, ⟨.null, .null, .null⟩,
      ⟨.integer 1, .integer 3, .integer 5⟩]⟩
    let db : Database := ⟨fun c => if c = .split then some t else none, false, ⟨5, by decide⟩⟩
    3 ≤ 3 ∧ [2, 1, 2].length + 2 ≤ db.limit.count ∧
    (((db.source 3).fetch .split [2, 1, 2] ⟨0, 9⟩).perform .empty).1 =
      .error (.database (.columnType .text .ratio)) := by
  intro t db
  have hroom : [2, 1, 2].length + 2 ≤ db.limit.count := Nat.le_refl 5
  refine ⟨by decide, hroom, ?_⟩
  rw [(fetch_eq_single_query db .split [2, 1, 2] ⟨0, 9⟩ .empty (by decide) hroom).1,
    fst_askActions, actions_eq_rowsOf hroom]
  have hselect : t.select [2, 1, 2] ⟨0, 9⟩ =
      [⟨.integer 1, .integer 3, .integer 5⟩, ⟨.integer 2, .text "2", .integer 5⟩] := by
    simp [Table.select, t, Value.equals, Value.within, Value.count?, List.mergeSort,
      List.MergeSort.Internal.splitInTwo, Row.precedes, Value.before]
  have htable : db.table? .split = some t := rfl
  rw [rowsOf_of_table htable, Table.actions, hselect]
  rfl

end Database

end AsOf
