import AsOf.Proofs.Load.Scopes
import AsOf.Proofs.Store.Kept
import AsOf.Store.Session

namespace AsOf

namespace Session

variable {s s' : Session} {q : Command} {qs : List Command} {kept : Option (Category → List Action)}
variable {limit : VariableLimit}

def after (s : Session) (qs : List Command) : Session :=
  qs.foldl (fun s q => (s.serve q).session) s

def Command.writes : Command → Bool
  | .insert _ _ | .createTables => true
  | _ => false

def Command.createsTables : Command → Bool
  | .createTables => true
  | _ => false

/-- The actions of a kind in those batches that were taken, batch after batch. -/
def committed (c : Category) (qs : List Command) (turns : List Turn) : List Action :=
  (qs.zip turns).flatMap fun
    | (.insert d as, t) => if d = c ∧ t.answer.isOk then as else []
    | _ => []

/-- What is kept after commands, as their answers say: nothing as long as there are no tables, and
then what was kept before, followed by the batches that were taken. -/
def keptAfter (kept : Option (Category → List Action)) (qs : List Command) (turns : List Turn) :
    Option (Category → List Action) :=
  if kept.isSome || qs.any Command.createsTables then
    some fun c => kept.elim [] (· c) ++ (committed c qs turns).map Action.stored
  else none

/-- The session is on a writable database that keeps these actions, or has no tables. -/
def Keeps (s : Session) (limit : VariableLimit) (kept : Option (Category → List Action)) : Prop :=
  ∃ db, s.store = .database db ∧ db.readOnly = false ∧ db.limit = limit ∧ db.Keeps kept

def fresh (limit : VariableLimit) (kept : Option (Category → List Action)) (maxParams : Nat) :
    Session :=
  ⟨.database (.keeping limit kept), maxParams, []⟩

theorem keeps_fresh (limit : VariableLimit) (kept : Option (Category → List Action))
    (maxParams : Nat) : (fresh limit kept maxParams).Keeps limit kept := by
  refine ⟨.keeping limit kept, rfl, ?_⟩
  cases kept with
  | none => exact ⟨rfl, rfl, .bare fun _ => rfl⟩
  | some records => exact ⟨rfl, rfl, .filled (Database.holds_holding records)⟩

theorem serveAll_append (s : Session) (qs rest : List Command) :
    s.serveAll (qs ++ rest) = s.serveAll qs ++ (s.after qs).serveAll rest := by
  induction qs generalizing s with
  | nil => rfl
  | cons q qs ih =>
    rw [List.cons_append, serveAll, ih]
    rfl

theorem store_of_reading (s : Session) (hq : q.writes = false) :
    (s.serve q).session.store = s.store := by
  cases q with
  | insert c as => cases hq
  | createTables => cases hq
  | assemble request =>
    rw [serve]
    cases checkAxesFirst request <;> rfl
  | _ => rfl

theorem maxParams_serve (s : Session) (q : Command) :
    (s.serve q).session.maxParams = s.maxParams := by
  have hchange (f : Database → Except DatabaseFault Unit × Database) :
      (s.change f).session.maxParams = s.maxParams := by
    unfold change
    cases s.store <;> rfl
  cases q with
  | insert c as => exact hchange _
  | createTables => exact hchange _
  | assemble request =>
    rw [serve]
    cases checkAxesFirst request <;> rfl
  | _ => rfl

theorem perform_of_oblivious {α : Type} {run : Run Fault α} (h : run.Oblivious) (reply : α → Reply)
    (s s' : Session) : (s.perform run reply).answer = (s'.perform run reply).answer ∧
      (s.perform run reply).asked = (s'.perform run reply).asked := by
  obtain ⟨r, qs, h⟩ := h
  have hanswer (s : Session) : (s.perform run reply).answer = r.map reply :=
    congrArg (Except.map reply) (h _).1
  have hasked (s : Session) : (s.perform run reply).asked = qs := by
    change (run.perform ⟨s.asked, []⟩).2.asked.drop s.asked.length = qs
    rw [(h _).2]
    exact List.drop_left
  rw [hanswer, hanswer, hasked, hasked]
  exact ⟨rfl, rfl⟩

theorem serve_of_source (hs : s.source.Stateless) (hsource : s.source = s'.source)
    (hmax : s.maxParams = s'.maxParams) (hq : q.writes = false) :
    (s.serve q).answer = (s'.serve q).answer ∧ (s.serve q).asked = (s'.serve q).asked := by
  cases q with
  | insert c as => cases hq
  | createTables => cases hq
  | maxParams =>
    rw [serve, serve, hmax]
    exact ⟨rfl, rfl⟩
  | chunkSize =>
    rw [serve, serve, hsource]
    exact ⟨rfl, rfl⟩
  | resolve c span =>
    rw [serve, serve, ← hsource]
    exact perform_of_oblivious ((hs.resolve c span).adapt .store) .sids s s'
  | fetch c sids span =>
    rw [serve, serve, ← hsource]
    exact perform_of_oblivious ((hs.fetch c sids span).adapt .store) .actions s s'
  | fetchOnce c sids span =>
    rw [serve, serve, ← hsource]
    exact perform_of_oblivious ((hs.askActions c sids span).adapt .store) .actions s s'
  | load request =>
    rw [serve, serve, ← hsource]
    exact perform_of_oblivious ((hs.loadRequest request).adapt .load) .loaded s s'
  | assemble request =>
    rw [serve, serve, ← hsource]
    cases checkAxesFirst request with
    | error e => exact ⟨rfl, rfl⟩
    | ok checked => exact perform_of_oblivious ((hs.load checked.1 _).adapt .load) .loaded s s'

theorem committed_cons (c : Category) (q : Command) (qs : List Command) (t : Turn)
    (ts : List Turn) :
    committed c (q :: qs) (t :: ts) = committed c [q] [t] ++ committed c qs ts := by
  simp only [committed, List.zip_cons_cons, List.flatMap_cons, List.zip_nil_left, List.flatMap_nil,
    List.append_nil]

theorem committed_of_reading (hq : q.writes = false) (c : Category) (t : Turn) :
    committed c [q] [t] = [] := by
  cases q with
  | insert d as => cases hq
  | _ => rfl

theorem committed_of_ok {t : Turn} {r : Reply} (h : t.answer = .ok r) (c d : Category)
    (as : List Action) : committed d [.insert c as] [t] = if c = d then as else [] := by
  simp [committed, h, Except.isOk, Except.toBool]

theorem committed_of_error {t : Turn} {e : Fault} (h : t.answer = .error e) (c d : Category)
    (as : List Action) : committed d [.insert c as] [t] = [] := by
  simp [committed, h, Except.isOk, Except.toBool]

theorem keptAfter_nil (kept : Option (Category → List Action)) : keptAfter kept [] [] = kept := by
  cases kept with
  | none => rfl
  | some records => simp [keptAfter, committed]

theorem keptAfter_of_committed_eq_nil {t : Turn} (hq : q.createsTables = false)
    (ht : ∀ c, committed c [q] [t] = []) : keptAfter kept [q] [t] = kept := by
  cases kept <;> simp [keptAfter, hq, ht]

theorem keptAfter_of_reading (hq : q.writes = false) (t : Turn) :
    keptAfter kept [q] [t] = kept := by
  apply keptAfter_of_committed_eq_nil
  · cases q with
    | createTables => cases hq
    | _ => rfl
  · exact fun c => committed_of_reading hq c t

theorem keptAfter_of_ok {t : Turn} {r : Reply} (h : t.answer = .ok r) (c : Category)
    (as : List Action) (records : Category → List Action) :
    keptAfter (some records) [.insert c as] [t] =
      some fun d => if d = c then records d ++ as.map Action.stored else records d := by
  refine congrArg some (funext fun d => ?_)
  rw [committed_of_ok h]
  by_cases hd : c = d
  · rw [if_pos hd, if_pos hd.symm]
    rfl
  · rw [if_neg hd, if_neg (Ne.symm hd)]
    exact List.append_nil _

theorem keptAfter_createTables (kept : Option (Category → List Action)) (t : Turn) :
    keptAfter kept [.createTables] [t] = some fun c => kept.elim [] (· c) := by
  simp [keptAfter, committed, Command.createsTables]

/-- What is kept after a run is what is kept after its first command and then after the others, if
that command takes no batch where there are no tables. -/
theorem keptAfter_cons {t : Turn} {ts : List Turn}
    (hq : kept = none → ∀ c, committed c [q] [t] = []) :
    keptAfter kept (q :: qs) (t :: ts) = keptAfter (keptAfter kept [q] [t]) qs ts := by
  have hcommitted (c : Category) := committed_cons c q qs t ts
  cases kept with
  | some records => simp [keptAfter, hcommitted]
  | none =>
    cases hcreates : q.createsTables <;> simp [keptAfter, hcommitted, hq rfl, hcreates]

section Database

variable {db db' : Database} {f : Database → Except DatabaseFault Unit × Database}
variable {e : DatabaseFault}

theorem source_of_store (hs : s.store = .database db) : s.source = db.source s.maxParams := by
  rw [source, hs]
  rfl

theorem change_ok (hs : s.store = .database db) (hf : f db = (.ok (), db')) :
    s.change f = { s with store := .database db' }.quiet (.ok .done) := by
  rw [change, hs]
  simp only [hf]
  rfl

theorem change_error (hs : s.store = .database db) (hf : f db = (.error e, db)) :
    s.change f = s.quiet (.error (.store (.database e))) := by
  rw [change, hs]
  simp only [hf, ← hs]
  rfl

end Database

namespace Keeps

variable {records : Category → List Action} {c : Category} {as : List Action}

theorem serve_insert_bare (h : s.Keeps limit none) (c : Category) (as : List Action) :
    s.serve (.insert c as) = s.quiet (.error (.store (.database (.noTable c)))) := by
  obtain ⟨db, hs, -, -, hk⟩ := h
  exact change_error hs (hk.insert_bare c as)

theorem serve_insert_nan (h : s.Keeps limit (some records)) (has : as.any (·.ratio.isNaN)) :
    s.serve (.insert c as) = s.quiet (.error (.store (.database (.notNull c .ratio)))) := by
  obtain ⟨db, hs, hw, -, hk⟩ := h
  exact change_error hs (hk.insert_nan hw has)

theorem serve_insert_ok (h : s.Keeps limit (some records)) (has : ¬as.any (·.ratio.isNaN)) :
    (s.serve (.insert c as)).answer = .ok .done ∧ (s.serve (.insert c as)).session.Keeps limit
      (some fun d => if d = c then records d ++ as.map Action.stored else records d) := by
  obtain ⟨db, hs, hw, hlimit, hk⟩ := h
  obtain ⟨db', hdb', hw', hlimit', hk'⟩ := hk.insert_ok hw has
  rw [serve, change_ok hs hdb']
  exact ⟨rfl, db', rfl, hw', hlimit'.trans hlimit, hk'⟩

theorem serve_createTables (h : s.Keeps limit kept) :
    (s.serve .createTables).answer = .ok .done ∧
      (s.serve .createTables).session.Keeps limit (some fun c => kept.elim [] (· c)) := by
  obtain ⟨db, hs, hw, hlimit, hk⟩ := h
  obtain ⟨db', hdb', hw', hlimit', hk'⟩ := hk.createTables hw
  rw [serve, change_ok hs hdb']
  exact ⟨rfl, db', rfl, hw', hlimit'.trans hlimit, hk'⟩

/-- The step law: a command leaves behind what its answer says. -/
theorem serve (h : s.Keeps limit kept) (q : Command) :
    (s.serve q).session.Keeps limit (keptAfter kept [q] [s.serve q]) ∧
      (kept = none → ∀ c, committed c [q] [s.serve q] = []) := by
  by_cases hq : q.writes = false
  · rw [keptAfter_of_reading hq]
    obtain ⟨db, hs, hw, hlimit, hk⟩ := h
    exact ⟨⟨db, (store_of_reading s hq).trans hs, hw, hlimit, hk⟩,
      fun _ c => committed_of_reading hq c _⟩
  -- A batch that is refused leaves the session as it was, and its answer says that none was taken.
  have hrefused {c : Category} {as : List Action} {e : Fault}
      (hturn : s.serve (.insert c as) = s.quiet (.error e)) :
      (s.serve (.insert c as)).session.Keeps limit
          (keptAfter kept [.insert c as] [s.serve (.insert c as)]) ∧
        ∀ d, committed d [.insert c as] [s.serve (.insert c as)] = [] := by
    have hnone (d : Category) : committed d [.insert c as] [s.serve (.insert c as)] = [] :=
      committed_of_error (congrArg Turn.answer hturn) c d as
    rw [keptAfter_of_committed_eq_nil rfl hnone, hturn]
    exact ⟨h, hturn ▸ hnone⟩
  cases q with
  | insert c as =>
    cases kept with
    | none =>
      obtain ⟨hkeeps, hnone⟩ := hrefused (h.serve_insert_bare c as)
      exact ⟨hkeeps, fun _ => hnone⟩
    | some records =>
      refine ⟨?_, fun hnone => by cases hnone⟩
      by_cases has : as.any (·.ratio.isNaN)
      · exact (hrefused (h.serve_insert_nan has)).1
      · obtain ⟨hanswer, hkeeps⟩ := h.serve_insert_ok (c := c) has
        rw [keptAfter_of_ok hanswer]
        exact hkeeps
  | createTables =>
    rw [keptAfter_createTables]
    exact ⟨h.serve_createTables.2, fun _ _ => rfl⟩
  | _ => exact absurd rfl hq

theorem after (h : s.Keeps limit kept) (qs : List Command) :
    (s.after qs).Keeps limit (keptAfter kept qs (s.serveAll qs)) := by
  induction qs generalizing s kept with
  | nil =>
    rw [serveAll, keptAfter_nil]
    exact h
  | cons q qs ih =>
    obtain ⟨hstep, hnone⟩ := h.serve q
    rw [serveAll, keptAfter_cons hnone]
    exact ih hstep

theorem committed_eq_nil (h : s.Keeps limit none) (hqs : qs.any Command.createsTables = false)
    (c : Category) : committed c qs (s.serveAll qs) = [] := by
  induction qs generalizing s with
  | nil => rfl
  | cons q qs ih =>
    rw [List.any_cons, Bool.or_eq_false_iff] at hqs
    obtain ⟨hstep, hnone⟩ := h.serve q
    rw [keptAfter_of_committed_eq_nil hqs.1 (hnone rfl)] at hstep
    rw [serveAll, committed_cons, hnone rfl, ih hstep hqs.2]
    rfl

theorem answer_fetch (h : s.Keeps limit (some records)) (hm : rangeParams < s.maxParams)
    {sids : List Int} (hroom : limit.Admits s.maxParams (SidSet.ofList sids).size) (c : Category)
    (span : Span) :
    (s.serve (.fetch c sids span)).answer = .ok (.actions (arrange Action.key
      ((records c).filter fun a => decide (a.sid ∈ sids) && span.contains a.effective))) := by
  obtain ⟨db, hs, -, rfl, hk⟩ := h
  cases hk with
  | filled hk =>
    change ((((s.source.fetch c sids span).perform _).1).mapError Fault.store).map Reply.actions = _
    rw [source_of_store hs, Database.fst_fetch db c sids span _ hm hroom, hk.rowsOf]
    rfl

/-- A reading command changes nothing and is answered as by a fresh session on what is kept. -/
theorem serve_reading (h : s.Keeps limit kept) (hq : q.writes = false) :
    (s.serve q).session.store = s.store ∧
      (s.serve q).answer = ((fresh limit kept s.maxParams).serve q).answer ∧
      (s.serve q).asked = ((fresh limit kept s.maxParams).serve q).asked := by
  obtain ⟨db, hs, -, rfl, hk⟩ := h
  have hsource := source_of_store hs
  have hstateless : s.source.Stateless := hsource ▸ db.source_stateless s.maxParams
  have hfresh : s.source = (fresh db.limit kept s.maxParams).source :=
    hsource.trans (hk.source_eq s.maxParams)
  exact ⟨store_of_reading s hq, serve_of_source hstateless hfresh rfl hq⟩

theorem answer_after_createTables (h : s.Keeps limit (some records)) (hq : q.writes = false) :
    ((s.serve .createTables).session.serve q).answer = (s.serve q).answer := by
  have hbefore := (h.serve_reading hq).2.1
  have hafter := (h.serve_createTables.2.serve_reading hq).2.1
  rw [maxParams_serve] at hafter
  exact hafter.trans hbefore.symm

theorem fetch_stored (h : s.Keeps limit (some records)) (hm : rangeParams < s.maxParams)
    {a : Action} (ha : a.stored ∈ records c) {sids : List Int} (hsid : a.sid ∈ sids)
    (hroom : limit.Admits s.maxParams (SidSet.ofList sids).size) {span : Span}
    (hspan : span.contains a.effective) :
    ∃ rows, (s.serve (.fetch c sids span)).answer = .ok (.actions rows) ∧
      ∃ r ∈ rows, r.sid = a.sid ∧ r.effective = a.effective ∧
        (a.ratio ≠ -0 → r.ratio = a.ratio) ∧ (a.ratio = -0 → r.ratio = 0) := by
  refine ⟨_, h.answer_fetch hm hroom c span, a.stored, ?_, a.sid_stored, a.effective_stored,
    Action.ratio_stored, Action.ratio_stored_neg_zero⟩
  rw [mem_arrange, List.mem_filter, a.sid_stored, a.effective_stored, hspan, Bool.and_true]
  exact ⟨ha, decide_eq_true hsid⟩

end Keeps

theorem maxParams_after (s : Session) (qs : List Command) :
    (s.after qs).maxParams = s.maxParams := by
  induction qs generalizing s with
  | nil => rfl
  | cons q qs ih => exact (ih (s.serve q).session).trans (maxParams_serve s q)

theorem isSome_of_mem_committed (h : s.Keeps limit kept) {c : Category} {a : Action}
    (ha : a ∈ committed c qs (s.serveAll qs)) :
    kept.isSome || qs.any Command.createsTables := by
  cases kept with
  | some records => rfl
  | none =>
    by_contra hno
    rw [h.committed_eq_nil (Bool.eq_false_iff.mpr hno)] at ha
    cases ha

/-- After any commands, a session on a writable database keeps what it kept before and the batches
that were taken, one after the other. Reading commands change nothing and are answered as by a fresh
session on what is kept. A batch is refused as a whole, exactly if there are no tables or one of its
ratios is a NaN, and leaves the session as it was. Tables may be created again and again, which does
not change an answer. The actions that were taken are read back, except that a ratio loses the sign
of zero. -/
theorem keeps_committed (h : s.Keeps limit kept) (done : List Command) :
    let now := s.after done
    let turns := s.serveAll done
    let kept' := keptAfter kept done turns
    (∀ q rest, s.serveAll (done ++ q :: rest) =
      turns ++ now.serve q :: (now.serve q).session.serveAll rest) ∧
    (∀ q : Command, q.writes = false →
      (now.serve q).session.store = now.store ∧
      (now.serve q).answer = ((fresh limit kept' s.maxParams).serve q).answer ∧
      (now.serve q).asked = ((fresh limit kept' s.maxParams).serve q).asked) ∧
    (∀ c as,
      (kept' = none →
        now.serve (.insert c as) = now.quiet (.error (.store (.database (.noTable c))))) ∧
      (kept'.isSome → as.any (·.ratio.isNaN) →
        now.serve (.insert c as) = now.quiet (.error (.store (.database (.notNull c .ratio))))) ∧
      (kept'.isSome → ¬as.any (·.ratio.isNaN) →
        (now.serve (.insert c as)).answer = .ok .done)) ∧
    ((now.serve .createTables).answer = .ok .done ∧
      (kept'.isSome → ∀ q : Command, q.writes = false →
        ((now.serve .createTables).session.serve q).answer = (now.serve q).answer)) ∧
    ∀ c, ∀ a ∈ committed c done turns, ∀ sids span, a.sid ∈ sids → span.contains a.effective →
      3 ≤ s.maxParams → limit.Admits s.maxParams (SidSet.ofList sids).size →
        ∃ rows, (now.serve (.fetch c sids span)).answer = .ok (.actions rows) ∧
        ∃ r ∈ rows, r.sid = a.sid ∧ r.effective = a.effective ∧
          (a.ratio ≠ -0 → r.ratio = a.ratio) ∧ (a.ratio = -0 → r.ratio = 0) := by
  intro now turns kept'
  have hnow : now.Keeps limit kept' := h.after done
  have hmax : now.maxParams = s.maxParams := maxParams_after s done
  refine ⟨fun q rest => serveAll_append s done (q :: rest), fun q hq => ?_, fun c as => ?_, ?_, ?_⟩
  · rw [← hmax]
    exact hnow.serve_reading hq
  · refine ⟨fun hnone => ?_, fun hsome has => ?_, fun hsome has => ?_⟩
    · rw [hnone] at hnow
      exact hnow.serve_insert_bare c as
    · obtain ⟨records, hrecords⟩ := Option.isSome_iff_exists.mp hsome
      rw [hrecords] at hnow
      exact hnow.serve_insert_nan has
    · obtain ⟨records, hrecords⟩ := Option.isSome_iff_exists.mp hsome
      rw [hrecords] at hnow
      exact (hnow.serve_insert_ok has).1
  · refine ⟨hnow.serve_createTables.1, fun hsome q hq => ?_⟩
    obtain ⟨records, hrecords⟩ := Option.isSome_iff_exists.mp hsome
    rw [hrecords] at hnow
    exact hnow.answer_after_createTables hq
  · intro c a ha sids span hsid hspan hm hroom
    have hrecords : kept' = some fun c => kept.elim [] (· c) ++
        (committed c done turns).map Action.stored := if_pos (isSome_of_mem_committed h ha)
    rw [hrecords] at hnow
    have hmem : a.stored ∈ kept.elim [] (· c) ++ (committed c done turns).map Action.stored :=
      List.mem_append_right _ (List.mem_map_of_mem ha)
    exact hnow.fetch_stored (hmax ▸ hm) hmem hsid (hmax ▸ hroom) hspan

theorem keeps_committed_refusals :
    let s : Session := ⟨.database .empty, 3, []⟩
    let done : List Command := [.insert .split [⟨5, 2, 10⟩], .createTables,
      .insert .split [⟨5, 4, 10⟩, ⟨6, 0 / 0, 10⟩], .insert .split [⟨5, -0, 10⟩], .createTables,
      .insert .split [⟨5, 3, 10⟩]]
    s.Keeps .builtIn none ∧ committed .split done (s.serveAll done) = [⟨5, -0, 10⟩, ⟨5, 3, 10⟩] ∧
      ((s.after done).serve (.fetch .split [5] ⟨0, 20⟩)).answer =
        .ok (.actions [⟨5, 0, 10⟩, ⟨5, 3, 10⟩]) := by
  intro s done
  have hs : s.Keeps .builtIn none := ⟨.empty, rfl, rfl, rfl, .bare fun _ => rfl⟩
  have hcommitted : committed .split done (s.serveAll done) = [⟨5, -0, 10⟩, ⟨5, 3, 10⟩] :=
    rfl
  let records : Category → List Action := fun c =>
    (committed c done (s.serveAll done)).map Action.stored
  have hkept : keptAfter none done (s.serveAll done) = some records := rfl
  have hanswer := ((keeps_committed hs done).2.1 (.fetch .split [5] ⟨0, 20⟩) rfl).2.1
  refine ⟨hs, hcommitted, hanswer.trans ?_⟩
  have hsplits : (records .split).filter (fun a => decide (a.sid ∈ [5]) &&
      Span.contains ⟨0, 20⟩ a.effective) = [⟨5, 0, 10⟩, ⟨5, 3, 10⟩] := rfl
  have hroom : VariableLimit.builtIn.Admits 3 (SidSet.ofList [5]).size :=
    VariableLimit.admits_of_le (by decide) (by decide)
  rw [hkept, (keeps_fresh .builtIn (some records) 3).answer_fetch (by decide) hroom, hsplits]
  simp [arrange, List.mergeSort, List.MergeSort.Internal.splitInTwo, Action.key]

end Session

end AsOf
