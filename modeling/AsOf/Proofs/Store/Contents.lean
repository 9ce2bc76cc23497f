import AsOf.Proofs.Store.Query

namespace AsOf

namespace Action

def row (a : Action) : Row := ⟨.integer a.sid, .real a.ratio, .integer a.effective⟩

def key (a : Action) : Int ×ₗ Int := toLex (a.sid, a.effective)

/-- The action that is read back after an insertion: a column of real numbers keeps no sign of
zero. -/
def stored (a : Action) : Action := if a.ratio == 0 then { a with ratio := 0 } else a

theorem decode_row (a : Action) : a.row.decode = .ok a := rfl

theorem row_key_le (a b : Action) : a.key ≤ b.key ↔ a.row.key ≤ b.row.key := by
  have hpos := Binary.perUnit_pos
  simp only [key, Row.key, row, Value.place_integer, Prod.Lex.toLex_le_toLex,
    Int.mul_lt_mul_right hpos, Int.mul_le_mul_right hpos, Int.mul_eq_mul_right_iff hpos.ne']

end Action

/-- A declared table holds actions, in the order of their insertion. -/
structure Table.Holds (t : Table) (records : List Action) : Prop where
  declared : t.declared = true
  rows : t.rows = records.map Action.row

/-- A database has a declared table for every kind of action, holding the given ones. -/
def Database.Holds (db : Database) (records : Category → List Action) : Prop :=
  ∀ c, ∃ t, db.table? c = some t ∧ t.Holds (records c)

def Database.holding (records : Category → List Action) : Database :=
  ⟨fun c => some ⟨true, true, (records c).map Action.row⟩, false, .builtIn⟩

theorem Database.holds_holding (records : Category → List Action) :
    (Database.holding records).Holds records :=
  fun _ => ⟨_, rfl, rfl, rfl⟩

def firstSids (n : Nat) : List Int := (List.range n).map fun i : Nat => (i : Int) + 1

theorem firstSids_ascending (n : Nat) : (firstSids n).Pairwise (· < ·) := by
  refine List.Pairwise.map _ (fun a b hab => ?_) List.pairwise_lt_range
  omega

theorem length_firstSids (n : Nat) : (firstSids n).length = n := by
  rw [firstSids, List.length_map, List.length_range]

theorem mem_firstSids {n : Nat} {a : Int} : a ∈ firstSids n ↔ 1 ≤ a ∧ a ≤ n := by
  simp only [firstSids, List.mem_map, List.mem_range]
  constructor
  · rintro ⟨i, hi, rfl⟩
    omega
  · rintro ⟨hpos, hle⟩
    exact ⟨(a - 1).toNat, by omega, by omega⟩

theorem mapM_eq_ok {α β ε : Type} {f : α → Except ε β} {g : α → β} {l : List α}
    (h : ∀ x ∈ l, f x = .ok (g x)) : l.mapM f = .ok (l.map g) := by
  induction l with
  | nil => rfl
  | cons x l ih =>
    rw [List.mapM_cons, h x List.mem_cons_self, ih fun y hy => h y (List.mem_cons_of_mem _ hy)]
    rfl

namespace Table

variable {t : Table} {c : Category} {records : List Action} {span : Span}

theorem holds_empty : Table.empty.Holds [] := ⟨rfl, rfl⟩

theorem encode_eq (h : t.declared = true) (a : Action) :
    t.encode c a =
      if a.ratio.isNaN then .error (.notNull c .ratio) else .ok a.stored.row := by
  unfold encode
  rw [h]
  by_cases hn : a.ratio.isNaN
  · rw [if_pos rfl, if_pos hn, if_pos hn]
  · rw [if_neg hn, if_neg hn, Bool.true_and, Action.stored]
    cases a.ratio == 0 <;> rfl

theorem matching_row (sids : List Int) (span : Span) (a : Action) :
    Row.matching sids span a.row = (decide (a.sid ∈ sids) && span.contains a.effective) := by
  have hany : sids.any a.row.sid.equals = decide (a.sid ∈ sids) := by
    rw [Bool.eq_iff_iff, List.any_eq_true, decide_eq_true_iff]
    constructor
    · rintro ⟨n, hn, he⟩
      have he : a.sid = n := of_decide_eq_true he
      rwa [he]
    · intro hs
      exact ⟨a.sid, hs, decide_eq_true rfl⟩
  rw [Row.matching, hany]
  rfl

theorem Holds.actions (h : t.Holds records) (sids : List Int) (span : Span) :
    t.actions sids span = .ok (arrange Action.key
      (records.filter fun a => decide (a.sid ∈ sids) && span.contains a.effective)) := by
  have hrows : t.rows.filter (Row.matching sids span) =
      (records.filter fun a => decide (a.sid ∈ sids) && span.contains a.effective).map
        Action.row := by
    rw [h.rows, List.filter_map]
    congr 1
    exact List.filter_congr fun a _ => matching_row sids span a
  rw [Table.actions, select_eq, hrows, ← map_arrange fun a _ b _ => a.row_key_le b, List.mapM_map]
  have hdecode (l : List Action) : l.mapM (Row.decode ∘ Action.row) = .ok (l.map id) :=
    mapM_eq_ok fun a _ => a.decode_row
  rw [hdecode, List.map_id]

theorem exists_collectSids {rows : List Row} (h : ∀ r ∈ rows, ∃ a : Action, a.row = r)
    (seen : SidSet) : ∃ found, collectSids seen rows = .ok found ∧
      ∀ s, s ∈ found ↔ s ∈ seen ∨ ∃ a : Action, a.row ∈ rows ∧ a.sid = s := by
  induction rows generalizing seen with
  | nil => exact ⟨seen, rfl, by simp⟩
  | cons r rest ih =>
    obtain ⟨hr, hrest⟩ := List.forall_mem_cons.mp h
    obtain ⟨a, rfl⟩ := hr
    obtain ⟨found, hfound, hmem⟩ := ih hrest (seen.insert a.sid)
    refine ⟨found, hfound, fun s => ?_⟩
    rw [hmem, SidSet.mem_insert, or_assoc, or_left_comm]
    refine or_congr_right ⟨?_, ?_⟩
    · rintro (rfl | ⟨b, hb, rfl⟩)
      · exact ⟨a, List.mem_cons_self, rfl⟩
      · exact ⟨b, List.mem_cons_of_mem _ hb, rfl⟩
    · rintro ⟨b, hb, rfl⟩
      rcases List.mem_cons.mp hb with hab | hb
      · exact .inl (Value.integer.inj (congrArg Row.sid hab))
      · exact .inr ⟨b, hb, rfl⟩

theorem Holds.sids (h : t.Holds records) (span : Span) :
    ∃ found, t.sids span = .ok found ∧
      ∀ a, a ∈ found ↔ ∃ r ∈ records, r.sid = a ∧ span.contains r.effective := by
  have hmem (r : Row) : r ∈ t.inSpan span ↔ r ∈ t.rows ∧ r.effective.within span := by
    unfold inSpan
    split <;> simp
  have hrow (r : Row) : r ∈ t.rows ↔ ∃ a ∈ records, a.row = r := by
    rw [h.rows, List.mem_map]
  have hactions : ∀ r ∈ t.inSpan span, ∃ a : Action, a.row = r := by
    intro r hr
    obtain ⟨a, -, ha⟩ := (hrow r).mp ((hmem r).mp hr).1
    exact ⟨a, ha⟩
  obtain ⟨found, hfound, hsids⟩ := exists_collectSids hactions .empty
  refine ⟨found, hfound, fun s => (hsids s).trans ⟨?_, ?_⟩⟩
  · rintro (hs | ⟨a, ha, rfl⟩)
    · cases hs
    · obtain ⟨ha, hw⟩ := (hmem _).mp ha
      obtain ⟨b, hb, hab⟩ := (hrow _).mp ha
      exact ⟨b, hb, Value.integer.inj (congrArg Row.sid hab),
        Value.integer.inj (congrArg Row.effective hab) ▸ hw⟩
  · rintro ⟨a, ha, rfl, hw⟩
    exact .inr ⟨a, (hmem _).mpr ⟨(hrow _).mpr ⟨a, ha, rfl⟩, hw⟩, rfl⟩

end Table

namespace Transaction

variable {x y : Transaction} {a : Action} {as : List Action}

theorem rollback_of_execute (h : x.execute a = .ok y) : y.rollback = x.rollback := by
  unfold execute at h
  split at h
  · cases h
  · cases hr : x.table.encode x.category a with
    | error e =>
      rw [hr] at h
      cases h
    | ok r =>
      rw [hr] at h
      cases h
      rfl

/-- Whatever has been inserted, a rollback leads back to where the transaction began. -/
theorem rollback_executeAll (x : Transaction) (as : List Action) :
    (x.executeAll as).2.rollback = x.rollback := by
  induction as generalizing x with
  | nil => rfl
  | cons a as ih =>
    rw [executeAll]
    cases h : x.execute a with
    | error e => rfl
    | ok y => exact (ih y).trans (rollback_of_execute h)

theorem execute_eq (hw : x.database.readOnly = false) (hd : x.table.declared = true)
    (a : Action) : x.execute a =
      if a.ratio.isNaN then .error (.notNull x.category .ratio)
      else .ok { x with inserted := a.stored.row :: x.inserted } := by
  rw [execute, hw, if_neg Bool.false_ne_true, Table.encode_eq hd]
  cases a.ratio.isNaN <;> rfl

theorem executeAll_of_nan (hw : x.database.readOnly = false) (hd : x.table.declared = true)
    (has : as.any (·.ratio.isNaN)) :
    (x.executeAll as).1 = .error (.notNull x.category .ratio) := by
  induction as generalizing x with
  | nil => cases has
  | cons a as ih =>
    rw [executeAll, execute_eq hw hd]
    cases ha : a.ratio.isNaN with
    | true => rfl
    | false =>
      rw [List.any_cons, ha, Bool.false_or] at has
      exact ih hw hd has

theorem executeAll_of_not_nan (hw : x.database.readOnly = false) (hd : x.table.declared = true)
    (has : ¬as.any (·.ratio.isNaN)) : x.executeAll as =
      (.ok (),
        { x with inserted := ((as.map Action.stored).map Action.row).reverse ++ x.inserted }) := by
  induction as generalizing x with
  | nil => rfl
  | cons a as ih =>
    rw [List.any_cons, Bool.or_eq_true, not_or] at has
    have hrest := ih (x := { x with inserted := a.stored.row :: x.inserted }) hw hd has.2
    rw [executeAll, execute_eq hw hd, if_neg has.1]
    simp only [hrest, List.map_cons, List.reverse_cons, List.append_assoc, List.singleton_append]

end Transaction

namespace Database

variable {db db' : Database} {c : Category} {records : Category → List Action}
variable {as : List Action}

theorem insert_of_table {t : Table} (ht : db.table? c = some t) (as : List Action) :
    db.insert c as = Transaction.finish (Transaction.executeAll ⟨db, c, t, []⟩ as) := by
  rw [insert, begin, table, ht]
  rfl

/-- A batch that is not taken as a whole leaves nothing behind. -/
theorem insert_of_error {e : DatabaseFault} (h : (db.insert c as).1 = .error e) :
    db.insert c as = (.error e, db) := by
  apply Prod.ext h
  cases ht : db.table? c with
  | none =>
    rw [insert, begin, table, ht]
    rfl
  | some t =>
    have hback := Transaction.rollback_executeAll ⟨db, c, t, []⟩ as
    rw [insert_of_table ht] at h ⊢
    cases hrun : Transaction.executeAll ⟨db, c, t, []⟩ as with
    | mk result x =>
      rw [hrun] at h hback
      cases result with
      | ok => cases h
      | error e => exact hback

theorem Holds.insert_nan (h : db.Holds records) (hw : db.readOnly = false)
    (has : as.any (·.ratio.isNaN)) : db.insert c as = (.error (.notNull c .ratio), db) := by
  obtain ⟨t, ht, hh⟩ := h c
  apply insert_of_error
  have hrun := Transaction.executeAll_of_nan (x := ⟨db, c, t, []⟩) hw hh.declared has
  rw [insert_of_table ht]
  cases hx : Transaction.executeAll ⟨db, c, t, []⟩ as with
  | mk result x =>
    rw [hx] at hrun
    cases hrun
    rfl

theorem Holds.insert_ok (h : db.Holds records) (hw : db.readOnly = false)
    (has : ¬as.any (·.ratio.isNaN)) : ∃ db', db.insert c as = (.ok (), db') ∧
      db'.readOnly = false ∧ db'.limit = db.limit ∧
      db'.Holds fun d => if d = c then records d ++ as.map Action.stored else records d := by
  obtain ⟨t, ht, hh⟩ := h c
  rw [insert_of_table ht,
    Transaction.executeAll_of_not_nan (x := ⟨db, c, t, []⟩) hw hh.declared has]
  refine ⟨_, rfl, hw, rfl, fun d => ?_⟩
  by_cases hd : d = c
  · subst hd
    refine ⟨_, if_pos rfl, hh.declared, ?_⟩
    simp [hh.rows]
  · obtain ⟨u, hu, hhu⟩ := h d
    exact ⟨u, (if_neg hd).trans hu, by simpa [hd] using hhu⟩

theorem Holds.rowsOf (h : db.Holds records) (c : Category) (sids : List Int) (span : Span) :
    db.rowsOf c sids span = .ok (arrange Action.key
      ((records c).filter fun a => decide (a.sid ∈ sids) && span.contains a.effective)) := by
  obtain ⟨t, ht, hh⟩ := h c
  rw [rowsOf_of_table ht, hh.actions]

theorem Holds.sids (h : db.Holds records) (c : Category) (span : Span) :
    ∃ found, db.sids c span = .ok found ∧
      ∀ a, a ∈ found ↔ ∃ r ∈ records c, r.sid = a ∧ span.contains r.effective := by
  obtain ⟨t, ht, hh⟩ := h c
  have htable : db.sids c span = t.sids span := by
    rw [Database.sids, Database.table, ht]
    rfl
  rw [htable]
  exact hh.sids span

end Database

end AsOf
