import AsOf.Proofs.Decimal.Doubles
import AsOf.Proofs.Store.Contents

namespace AsOf

namespace Action

variable {a : Action}

theorem sid_stored (a : Action) : a.stored.sid = a.sid := by
  unfold stored
  split <;> rfl

theorem effective_stored (a : Action) : a.stored.effective = a.effective := by
  unfold stored
  split <;> rfl

theorem ratio_stored_neg_zero (h : a.ratio = -0) : a.stored.ratio = 0 := by
  have hzero : (a.ratio == 0) = true := by
    rw [h]
    decide
  rw [stored, if_pos hzero]

theorem ratio_stored (h : a.ratio ≠ -0) : a.stored.ratio = a.ratio := by
  unfold stored
  split
  · rename_i hzero
    rcases Float.eq_zero_of_beq hzero with heq | heq
    · exact heq.symm
    · exact absurd heq h
  · rfl

end Action

namespace Database

variable {db : Database} {records : Category → List Action} {c : Category} {as : List Action}
variable {kept : Option (Category → List Action)}

/-- The database has no tables and keeps nothing, or it has all of them and keeps these actions. -/
inductive Keeps (db : Database) : Option (Category → List Action) → Prop
  | bare (h : ∀ c, db.table? c = none) : Keeps db none
  | filled {records : Category → List Action} (h : db.Holds records) : Keeps db (some records)

def keeping (limit : VariableLimit) : Option (Category → List Action) → Database
  | none => { empty with limit := limit }
  | some records => { holding records with limit := limit }

/-- What a database answers is determined by what it keeps. -/
theorem Keeps.source_eq (h : db.Keeps kept) (m : Nat) :
    db.source m = (keeping db.limit kept).source m := by
  have hlimit : (keeping db.limit kept).limit = db.limit := by
    cases kept <;> rfl
  have hsource (hsids : db.sids = (keeping db.limit kept).sids)
      (hrows : db.rowsOf = (keeping db.limit kept).rowsOf) :
      db.source m = (keeping db.limit kept).source m := by
    have hactions : db.actions = (keeping db.limit kept).actions := by
      funext c sids span
      rw [actions_eq_ite, actions_eq_ite, hlimit, hrows]
    rw [source, source, hsids, hactions]
  cases h with
  | bare h =>
    apply hsource
    · funext c span
      rw [sids, sids, table, table, h]
      rfl
    · funext c sids span
      rw [rowsOf, rowsOf, table, table, h]
      rfl
  | @filled records h =>
    have hkept : (keeping db.limit (some records)).Holds records := holds_holding records
    apply hsource
    · funext c span
      obtain ⟨found, hfound, hmem⟩ := h.sids c span
      obtain ⟨found', hfound', hmem'⟩ := hkept.sids c span
      have hsame : found = found' := SidSet.ext_mem fun a => (hmem a).trans (hmem' a).symm
      rw [hfound, hfound', hsame]
    · funext c sids span
      rw [h.rowsOf, hkept.rowsOf]

theorem Keeps.insert_bare (h : db.Keeps none) (c : Category) (as : List Action) :
    db.insert c as = (.error (.noTable c), db) := by
  cases h with
  | bare h =>
    rw [insert, begin, table, h]
    rfl

theorem Keeps.insert_nan (h : db.Keeps (some records)) (hw : db.readOnly = false)
    (has : as.any (·.ratio.isNaN)) : db.insert c as = (.error (.notNull c .ratio), db) := by
  cases h with
  | filled h => exact h.insert_nan hw has

theorem Keeps.insert_ok (h : db.Keeps (some records)) (hw : db.readOnly = false)
    (has : ¬as.any (·.ratio.isNaN)) : ∃ db', db.insert c as = (.ok (), db') ∧
      db'.readOnly = false ∧ db'.limit = db.limit ∧
      db'.Keeps (some fun d => if d = c then records d ++ as.map Action.stored else records d) := by
  cases h with
  | filled h =>
    obtain ⟨db', hdb', hw', hlimit, hholds⟩ := h.insert_ok (c := c) hw has
    exact ⟨db', hdb', hw', hlimit, .filled hholds⟩

theorem Keeps.createTables (h : db.Keeps kept) (hw : db.readOnly = false) :
    ∃ db', db.createTables = (.ok (), db') ∧ db'.readOnly = false ∧
      db'.limit = db.limit ∧ db'.Keeps (some fun c => kept.elim [] (· c)) := by
  unfold Database.createTables
  cases h with
  | bare h =>
    have hincomplete : ¬db.isComplete := by
      simp [isComplete, Category.all, h]
    rw [if_neg hincomplete, hw, if_neg Bool.false_ne_true]
    refine ⟨_, rfl, rfl, rfl, .filled fun c => ⟨.empty, ?_, Table.holds_empty⟩⟩
    change some (db.completed c) = _
    rw [completed, h]
  | filled h =>
    by_cases hcomplete : db.isComplete
    · rw [if_pos hcomplete]
      exact ⟨db, rfl, hw, rfl, .filled h⟩
    · rw [if_neg hcomplete, hw, if_neg Bool.false_ne_true]
      refine ⟨_, rfl, rfl, rfl, .filled fun c => ?_⟩
      obtain ⟨t, ht, hh⟩ := h c
      refine ⟨{ t with indexed := true }, ?_, hh.declared, hh.rows⟩
      change some (db.completed c) = _
      rw [completed, ht]

end Database

end AsOf
