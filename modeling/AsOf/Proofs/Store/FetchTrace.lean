import AsOf.Proofs.Load.Plan
import AsOf.Store.Script

namespace AsOf

/-- Consecutive pieces of a list, none of them empty, all of one size except that the last may be
smaller. -/
structure Cut {α : Type} (size : Nat) (l : List α) (pieces : List (List α)) : Prop where
  flatten : pieces.flatten = l
  ne_nil : ∀ piece ∈ pieces, piece ≠ []
  length_le : ∀ piece ∈ pieces, piece.length ≤ size
  length_eq : ∀ piece ∈ pieces.dropLast, piece.length = size

theorem length_of_mem_dropLast_chunks {α : Type} {size : Nat} {h : 0 < size} {l piece : List α}
    (hp : piece ∈ (chunks size h l).dropLast) : piece.length = size := by
  fun_induction chunks size h l with
  | case1 => cases hp
  | case2 l hl ih =>
    cases hrest : chunks size h (l.drop size) with
    | nil =>
      rw [hrest] at hp
      cases hp
    | cons next rest =>
      rw [hrest, List.dropLast_cons_cons] at hp
      rcases List.mem_cons.mp hp with rfl | hp
      · -- Something is left for the next piece, so this one is full.
        have hleft : l.drop size ≠ [] := by
          intro hnil
          rw [hnil, chunks, if_pos rfl] at hrest
          cases hrest
        have hlt : size < l.length := Nat.lt_of_not_le fun hle => hleft (List.drop_of_length_le hle)
        exact List.length_take_of_le (Nat.le_of_lt hlt)
      · exact ih (hrest ▸ hp)

theorem cut_chunks {α : Type} {size : Nat} (h : 0 < size) (l : List α) :
    Cut size l (chunks size h l) where
  flatten := flatten_chunks size h l
  ne_nil _ hp := (mem_chunks hp).1
  length_le _ hp := (mem_chunks hp).2
  length_eq _ hp := length_of_mem_dropLast_chunks hp

theorem Cut.eq_nil {α : Type} {size : Nat} {pieces : List (List α)} (h : Cut size [] pieces) :
    pieces = [] :=
  List.eq_nil_iff_forall_not_mem.mpr fun piece hp =>
    h.ne_nil piece hp (List.flatten_eq_nil_iff.mp h.flatten piece hp)

/-- What is logged of answers to fetches, numbered from `n` on. -/
def fetchEvents (c : Category) (n : Nat) (pieces : List (List Int))
    (answers : List (List Action)) : List Event :=
  (pieces.zip answers).mapIdx fun i p => .fetchedChunk c (n + i) (p.1.length + 2) p.2.length

theorem fetchEvents_cons (c : Category) (n : Nat) (piece : List Int) (rows : List Action)
    (pieces : List (List Int)) (answers : List (List Action)) :
    fetchEvents c n (piece :: pieces) (rows :: answers) =
      .fetchedChunk c n (piece.length + 2) rows.length :: fetchEvents c (n + 1) pieces answers := by
  simp only [fetchEvents, List.zip_cons_cons, List.mapIdx_cons, Nat.add_zero, Nat.add_assoc,
    Nat.add_comm 1]

def fetchedRows : List Event → Nat
  | [] => 0
  | .fetchedChunk _ _ _ rows :: rest => rows + fetchedRows rest
  | _ :: rest => fetchedRows rest

/-- The journal after fetches of pieces that have been answered, numbered from `n` on. -/
def Journal.fetched (j : Journal) (c : Category) (span : Span) (n : Nat)
    (pieces : List (List Int)) (answers : List (List Action)) : Journal :=
  ⟨j.asked ++ pieces.map (.fetch c · span), j.events ++ fetchEvents c n pieces answers⟩

theorem Journal.fetched_nil (j : Journal) (c : Category) (span : Span) (n : Nat) :
    j.fetched c span n [] [] = j := by
  simp [fetched, fetchEvents]

theorem Journal.fetched_fetched (j : Journal) (c : Category) (span : Span) (n : Nat)
    (piece : List Int) (rows : List Action) (pieces : List (List Int))
    (answers : List (List Action)) :
    (j.fetched c span n [piece] [rows]).fetched c span (n + 1) pieces answers =
      j.fetched c span n (piece :: pieces) (rows :: answers) := by
  have hone : fetchEvents c n [piece] [rows] = [.fetchedChunk c n (piece.length + 2) rows.length] :=
    rfl
  simp only [fetched, fetchEvents_cons, hone, List.map_cons, List.map_nil, List.append_assoc,
    List.singleton_append]

def prepending (rows : List Action) (t : Except StoreFault (List Action) × Journal) :
    Except StoreFault (List Action) × Journal :=
  (t.1.map (rows ++ ·), t.2)

theorem prepending_nil (t : Except StoreFault (List Action) × Journal) : prepending [] t = t := by
  obtain ⟨answer, j⟩ := t
  cases answer <;> rfl

theorem prepending_prepending (rows more : List Action)
    (t : Except StoreFault (List Action) × Journal) :
    prepending rows (prepending more t) = prepending (rows ++ more) t := by
  obtain ⟨answer, j⟩ := t
  cases answer with
  | ok last => exact congrArg (Except.ok ·, j) (List.append_assoc rows more last).symm
  | error e => rfl

namespace Source

variable {s : Source} {c : Category} {span : Span} {j : Journal} {past : List Query}
variable {piece : List Int} {pieces done rest : List (List Int)} {answers : List (List Action)}
variable {rows : List Action} {e : StoreFault}

/-- A source that has been asked some queries before answers fetches of pieces, one after the
other. -/
inductive Answers (s : Source) (c : Category) (span : Span) :
    List Query → List (List Int) → List (List Action) → Prop
  | nil (past : List Query) : Answers s c span past [] []
  | cons {past : List Query} {piece : List Int} {pieces : List (List Int)} {rows : List Action}
      {answers : List (List Action)} (head : s.actions past c piece span = .ok rows)
      (tail : Answers s c span (past ++ [.fetch c piece span]) pieces answers) :
      Answers s c span past (piece :: pieces) (rows :: answers)

theorem answers_or_fails (s : Source) (c : Category) (span : Span) (past : List Query)
    (pieces : List (List Int)) :
    (∃ answers, s.Answers c span past pieces answers) ∨
      ∃ done piece rest answers e, pieces = done ++ piece :: rest ∧
        s.Answers c span past done answers ∧
        s.actions (past ++ done.map (.fetch c · span)) c piece span = .error e := by
  induction pieces generalizing past with
  | nil => exact .inl ⟨[], .nil past⟩
  | cons piece pieces ih =>
    cases hhead : s.actions past c piece span with
    | error e => exact .inr ⟨[], piece, pieces, [], e, rfl, .nil past, by simpa using hhead⟩
    | ok rows =>
      rcases ih (past ++ [.fetch c piece span]) with
        ⟨answers, htail⟩ | ⟨done, bad, rest, answers, e, rfl, hdone, hbad⟩
      · exact .inl ⟨rows :: answers, .cons hhead htail⟩
      · refine .inr ⟨piece :: done, bad, rest, rows :: answers, e, rfl, .cons hhead hdone, ?_⟩
        rwa [List.append_assoc] at hbad

theorem fetchedRows_fetchEvents (h : s.Answers c span past pieces answers) (n : Nat) :
    fetchedRows (fetchEvents c n pieces answers) = answers.flatten.length := by
  induction h generalizing n with
  | nil => rfl
  | cons head tail ih =>
    rw [fetchEvents_cons, fetchedRows, ih, List.flatten_cons, List.length_append]

/-- The step law: an answer is logged and put before the later ones. -/
theorem perform_fetchChunks_cons (h : s.actions j.asked c piece span = .ok rows) (n : Nat)
    (rest : List (List Int)) :
    (s.fetchChunks c span n (piece :: rest)).perform j = prepending rows
      ((s.fetchChunks c span (n + 1) rest).perform (j.fetched c span n [piece] [rows])) := by
  have hask : (s.askActions c piece span).perform j =
      (.ok rows, { j with asked := j.asked ++ [.fetch c piece span] }) := by
    rw [perform_askActions, h]
  rw [fetchChunks, Run.perform_bind_ok _ hask, Run.perform_log_bind]
  change ((s.fetchChunks c span (n + 1) rest >>= fun more => pure (rows ++ more)).perform
    (j.fetched c span n [piece] [rows])) = _
  cases ht : (s.fetchChunks c span (n + 1) rest).perform (j.fetched c span n [piece] [rows]) with
  | mk answer j' =>
    cases answer with
    | ok more => exact Run.perform_bind_ok _ ht
    | error e => exact Run.perform_bind_error _ ht

/-- The run law: answers are logged one after the other and joined. -/
theorem perform_fetchChunks_append (h : s.Answers c span j.asked done answers) (n : Nat)
    (rest : List (List Int)) :
    (s.fetchChunks c span n (done ++ rest)).perform j = prepending answers.flatten
      ((s.fetchChunks c span (n + done.length) rest).perform
        (j.fetched c span n done answers)) := by
  generalize hpast : j.asked = past at h
  induction h generalizing j n with
  | nil => rw [List.flatten_nil, prepending_nil, Journal.fetched_nil]; rfl
  | @cons past piece pieces rows answers head tail ih =>
    subst hpast
    have hrest := ih (j := j.fetched c span n [piece] [rows]) (n + 1) rfl
    rw [List.cons_append, perform_fetchChunks_cons head, hrest, prepending_prepending,
      Journal.fetched_fetched, Nat.add_assoc, Nat.add_comm 1]
    rfl

theorem perform_fetchChunks_of_answers (h : s.Answers c span j.asked pieces answers) (n : Nat) :
    (s.fetchChunks c span n pieces).perform j =
      (.ok answers.flatten, j.fetched c span n pieces answers) := by
  have hrun := perform_fetchChunks_append h n []
  rw [List.append_nil] at hrun
  rw [hrun, fetchChunks, Run.perform_pure, prepending]
  exact congrArg (Except.ok ·, j.fetched c span n pieces answers) (List.append_nil _)

theorem perform_fetchChunks_of_error (h : s.Answers c span j.asked done answers)
    (he : s.actions (j.asked ++ done.map (.fetch c · span)) c piece span = .error e) (n : Nat)
    (rest : List (List Int)) :
    (s.fetchChunks c span n (done ++ piece :: rest)).perform j =
      (.error e, ⟨j.asked ++ (done ++ [piece]).map (.fetch c · span),
        j.events ++ fetchEvents c n done answers⟩) := by
  have hask : (s.askActions c piece span).perform (j.fetched c span n done answers) =
      (.error e, ⟨j.asked ++ (done ++ [piece]).map (.fetch c · span),
        j.events ++ fetchEvents c n done answers⟩) := by
    rw [perform_askActions, Journal.fetched, he, List.map_append, ← List.append_assoc]
    rfl
  rw [perform_fetchChunks_append h n, fetchChunks, Run.perform_bind_error _ hask]
  rfl

theorem perform_fetch_error (s : Source) (c : Category) (candidates : List Int) (span : Span)
    (j : Journal) (hm : s.maxParams ≤ 2) :
    (s.fetch c candidates span).perform j = (.error (.parameterLimit s.maxParams 2), j) := by
  rw [fetch, s.chunkSize_eq_error hm]
  rfl

theorem perform_fetch (s : Source) (c : Category) (candidates : List Int) (span : Span)
    (j : Journal) (hm : 2 < s.maxParams) :
    (s.fetch c candidates span).perform j =
      (s.fetchChunks c span 0 (s.pieces (SidSet.ofList candidates).toList)).perform j := by
  rw [fetch, s.chunkSize_eq hm, Run.perform_ofExcept_bind_ok, pieces, s.chunkSize_eq hm]

/-- A fetch whose queries have no room for an asset fails before it asks anything. Any other asks
for pieces of the ascending list of its assets, and either all of them are answered, or it ends at
the first that is not. -/
theorem fetch_trace (s : Source) (c : Category) (candidates : List Int) (span : Span)
    (j : Journal) :
    let run := (s.fetch c candidates span).perform j
    let sids := (SidSet.ofList candidates).toList
    let pieces := s.pieces sids
    (s.maxParams ≤ 2 → run = (.error (.parameterLimit s.maxParams 2), j)) ∧
    (sids.Pairwise (· < ·) ∧ ∀ a, a ∈ sids ↔ a ∈ candidates) ∧
    (2 < s.maxParams →
      (Cut (s.maxParams - 2) sids pieces ∧ (candidates = [] → pieces = [])) ∧
      (∀ answers, s.Answers c span j.asked pieces answers →
        run = (.ok answers.flatten, j.fetched c span 0 pieces answers) ∧
          fetchedRows (fetchEvents c 0 pieces answers) = answers.flatten.length) ∧
      (∀ done piece rest answers e, pieces = done ++ piece :: rest →
        s.Answers c span j.asked done answers →
        s.actions (j.asked ++ done.map (.fetch c · span)) c piece span = .error e →
          run = (.error e, ⟨j.asked ++ (done ++ [piece]).map (.fetch c · span),
            j.events ++ fetchEvents c 0 done answers⟩)) ∧
      ((∃ answers, s.Answers c span j.asked pieces answers) ∨
        ∃ done piece rest answers e, pieces = done ++ piece :: rest ∧
          s.Answers c span j.asked done answers ∧
          s.actions (j.asked ++ done.map (.fetch c · span)) c piece span = .error e)) := by
  intro run sids pieces
  refine ⟨s.perform_fetch_error c candidates span j,
    ⟨SidSet.ascending _, fun a => SidSet.mem_ofList⟩, fun hm => ?_⟩
  have hrun : run = (s.fetchChunks c span 0 pieces).perform j :=
    s.perform_fetch c candidates span j hm
  refine ⟨?_, fun answers h => ?_, fun done piece rest answers e hpieces h he => ?_,
    s.answers_or_fails c span j.asked pieces⟩
  · have hcut : Cut (s.maxParams - 2) sids pieces := by
      change Cut _ sids (s.pieces sids)
      rw [Source.pieces, s.chunkSize_eq hm]
      exact cut_chunks _ sids
    refine ⟨hcut, ?_⟩
    rintro rfl
    exact hcut.eq_nil
  · exact ⟨hrun.trans (perform_fetchChunks_of_answers h 0), fetchedRows_fetchEvents h 0⟩
  · rw [hrun, hpieces]
    exact perform_fetchChunks_of_error h he 0 rest

theorem fetch_trace_second_piece :
    let s : Source := Script.source ⟨fun
      | .split => [⟨3, 2, 10⟩, ⟨9, 2, 10⟩, ⟨1, 2, 10⟩]
      | _ => [], none, false, some (1, "disk I/O error")⟩ 4
    (s.fetch .split [9, 3, 7, 7, 1, 9, 5] ⟨10, 20⟩).perform .empty =
      (.error (.backend "disk I/O error"),
        ⟨[.fetch .split [1, 3] ⟨10, 20⟩, .fetch .split [5, 7] ⟨10, 20⟩],
          [.fetchedChunk .split 0 4 2]⟩) := by
  intro s
  have hpieces : s.pieces (SidSet.ofList [9, 3, 7, 7, 1, 9, 5]).toList =
      [[1, 3]] ++ [5, 7] :: [[9]] := by
    decide +kernel
  have htrace := s.fetch_trace .split [9, 3, 7, 7, 1, 9, 5] ⟨10, 20⟩ .empty
  have hfirst : s.Answers .split ⟨10, 20⟩ [] [[1, 3]] [[⟨3, 2, 10⟩, ⟨1, 2, 10⟩]] :=
    .cons rfl (.nil _)
  exact (htrace.2.2 (by decide)).2.2.1 [[1, 3]] [5, 7] [[9]] _ _ hpieces hfirst rfl

end Source

end AsOf
