import AsOf.Proofs.Config.Merge

namespace AsOf

namespace Json

variable {a b c u v w : Json} {k : String} {p : List String}

theorem sizeOf_lt_of_get? (h : v.get? k = some w) : sizeOf w < sizeOf v := by
  cases v with
  | obj members =>
    have hmem := List.sizeOf_lt_of_mem (mem_of_lookup h)
    simp only [Prod.mk.sizeOf_spec] at hmem
    rw [obj.sizeOf_spec]
    omega
  | _ => cases h

theorem members_induction {P : Json → Prop}
    (h : ∀ v, (∀ k w, v.get? k = some w → P w) → P v) (v : Json) : P v := by
  apply h
  intro k w hw
  exact members_induction h w
termination_by sizeOf v
decreasing_by exact sizeOf_lt_of_get? hw

theorem Sorted.member? (h : v.Sorted) (k : String) : ((v.get? k).getD .null).Sorted := by
  cases hk : v.get? k with
  | none => trivial
  | some w => exact h.get? hk

theorem Sorted.merge (ha : a.Sorted) (hb : b.Sorted) : (merge a b).Sorted :=
  hereditary_sorted.merge b ha hb

theorem Sorted.ext (ha : a.Sorted) (hb : b.Sorted) (hao : a.isObject = true)
    (hbo : b.isObject = true) (h : ∀ k, a.get? k = b.get? k) : a = b := by
  cases a with
  | obj ms =>
    cases b with
    | obj ns =>
      rw [Sorted] at ha hb
      rw [eq_of_lookup_eq ha.1 hb.1 h]
    | _ => cases hbo
  | _ => cases hao

theorem merge_merge_self (ha : a.Sorted) (hb : b.Sorted) : merge (merge a b) b = merge a b := by
  induction b using members_induction generalizing a with
  | h b ih =>
    cases hbo : b.isObject with
    | false => rw [merge_of_not_isObject _ hbo, merge_of_not_isObject _ hbo]
    | true =>
      have hab := ha.merge hb
      apply (hab.merge hb).ext hab
      · rw [isObject_merge, hbo]
      · rw [isObject_merge, hbo]
      intro k
      rw [get?_merge hb, get?_merge hb, hbo]
      cases hv : b.get? k with
      | none => rfl
      | some v =>
        change some (merge (merge _ v) v) = some (merge _ v)
        rw [ih k v hv (ha.member? k) (hb.get? hv)]

theorem merge_of_not_isObject_left (h : a.isObject = false) (b : Json) : merge a b = b := by
  cases a with
  | obj members => cases h
  | _ => cases b <;> rfl

theorem isObject_of_at? (h : v.at? p = some w) (hw : w.isObject = true) : v.isObject = true := by
  cases p with
  | nil =>
    cases h
    exact hw
  | cons k p =>
    cases hv : v.isObject with
    | true => rfl
    | false =>
      rw [at?, get?_of_not_isObject hv] at h
      cases h

theorem HasObject.get? (h : v.HasObject (k :: p)) : ∃ w, v.get? k = some w ∧ w.HasObject p := by
  obtain ⟨u, hu, hobject⟩ := h
  obtain ⟨w, hw, hu⟩ := Option.bind_eq_some_iff.mp hu
  exact ⟨w, hw, u, hu, hobject⟩

theorem at?_cons_iff (hu : u.isObject = true) :
    v.at? (k :: p) = some u ↔ ((v.get? k).getD .null).at? p = some u := by
  rw [at?]
  cases v.get? k with
  | some w => rfl
  | none =>
    refine iff_of_false (fun h => by cases h) fun h => ?_
    cases isObject_of_at? h hu

/-- At a path the first and the last have objects, and the one between has something else. -/
structure Severs (a b c : Json) (p : List String) (u w : Json) : Prop where
  first : a.at? p = some u
  last : c.at? p = some w
  between : ∃ v, b.at? p = some v ∧ v.isObject = false
  isObject_first : u.isObject = true
  isObject_last : w.isObject = true

theorem Severs.isObject (h : Severs a b c p u w) : a.isObject = true ∧ c.isObject = true :=
  ⟨isObject_of_at? h.first h.isObject_first, isObject_of_at? h.last h.isObject_last⟩

theorem not_severs_nil (hb : b.isObject = true) : ¬Severs a b c [] u w := by
  rintro ⟨-, -, ⟨v, hv, hno⟩, -, -⟩
  cases hv
  rw [hb] at hno
  cases hno

theorem severs_cons_iff : Severs a b c (k :: p) u w ↔
    ∃ v x, b.get? k = some v ∧ c.get? k = some x ∧
      Severs ((a.get? k).getD .null) v x p u w := by
  constructor
  · rintro ⟨hu, hw, ⟨y, hy, hno⟩, huo, hwo⟩
    obtain ⟨v, hv, hy⟩ := Option.bind_eq_some_iff.mp hy
    obtain ⟨x, hx, hw⟩ := Option.bind_eq_some_iff.mp hw
    exact ⟨v, x, hv, hx, (at?_cons_iff huo).mp hu, hw, ⟨y, hy, hno⟩, huo, hwo⟩
  · rintro ⟨v, x, hv, hx, hu, hw, ⟨y, hy, hno⟩, huo, hwo⟩
    refine ⟨(at?_cons_iff huo).mpr hu, ?_, ⟨y, ?_, hno⟩, huo, hwo⟩
    · rw [at?, hx]
      exact hw
    · rw [at?, hv]
      exact hy

theorem get?_merge_assoc_iff (hb : b.Sorted) (hc : c.Sorted) (hbo : b.isObject = true)
    (hco : c.isObject = true) (a : Json) (k : String) :
    (merge (merge a b) c).get? k = (merge a (merge b c)).get? k ↔
      ∀ v w, b.get? k = some v → c.get? k = some w →
        merge (merge ((a.get? k).getD .null) v) w = merge ((a.get? k).getD .null) (merge v w) := by
  rw [get?_merge hc, get?_merge (hb.merge hc), get?_merge hb, get?_merge hc, isObject_merge, hbo,
    hco]
  cases hw : c.get? k with
  | none => cases hv : b.get? k <;> simp
  | some w =>
    cases hv : b.get? k with
    | none => simp [null_merge]
    | some v => simp

/-- The step law: two ways of merging three objects agree if they do so on the members that the last
two have in common. -/
theorem merge_assoc_iff_members (ha : a.Sorted) (hb : b.Sorted) (hc : c.Sorted)
    (hbo : b.isObject = true) (hco : c.isObject = true) :
    merge (merge a b) c = merge a (merge b c) ↔
      ∀ k v w, b.get? k = some v → c.get? k = some w →
        merge (merge ((a.get? k).getD .null) v) w =
          merge ((a.get? k).getD .null) (merge v w) := by
  have hleft : (merge (merge a b) c).isObject = true := by
    rw [isObject_merge, hco]
  have hright : (merge a (merge b c)).isObject = true := by
    rw [isObject_merge, isObject_merge, hco]
  constructor
  · intro he k
    rw [← get?_merge_assoc_iff hb hc hbo hco, he]
  · intro h
    apply ((ha.merge hb).merge hc).ext (ha.merge (hb.merge hc)) hleft hright
    intro k
    exact (get?_merge_assoc_iff hb hc hbo hco a k).mpr (h k)

/-- It makes no difference which two of three layers are merged beforehand, exactly if the first has
nothing, wherever the middle one severs two objects, that the last does not say itself. -/
theorem merge_assoc_iff (ha : a.Sorted) (hb : b.Sorted) (hc : c.Sorted) :
    merge (merge a b) c = merge a (merge b c) ↔ ∀ p u w, Severs a b c p u w → merge u w = w := by
  induction c using members_induction generalizing a b with
  | h c ih =>
    cases hco : c.isObject with
    | false =>
      simp only [merge_of_not_isObject _ hco, true_iff]
      intro p u w hsevers
      exact absurd hsevers.isObject.2 (by simp [hco])
    | true =>
      cases hbo : b.isObject with
      | false =>
        rw [merge_of_not_isObject a hbo, merge_of_not_isObject_left hbo]
        constructor
        · intro he p u w hsevers
          cases p with
          | nil =>
            cases hsevers.first
            cases hsevers.last
            exact he.symm
          | cons k p =>
            obtain ⟨v, x, hv, -⟩ := severs_cons_iff.mp hsevers
            rw [get?_of_not_isObject hbo] at hv
            cases hv
        · intro h
          cases hao : a.isObject with
          | false => exact (merge_of_not_isObject_left hao c).symm
          | true => exact (h [] a c ⟨rfl, rfl, ⟨b, rfl, hbo⟩, hao, hco⟩).symm
      | true =>
        rw [merge_assoc_iff_members ha hb hc hbo hco]
        constructor
        · intro h p u w hsevers
          cases p with
          | nil => exact absurd hsevers (not_severs_nil hbo)
          | cons k p =>
            obtain ⟨v, x, hv, hx, hrest⟩ := severs_cons_iff.mp hsevers
            have hk := ih k x hx (ha.member? k) (hb.get? hv) (hc.get? hx)
            exact hk.mp (h k v x hv hx) p u w hrest
        · intro h k v x hv hx
          apply (ih k x hx (ha.member? k) (hb.get? hv) (hc.get? hx)).mpr
          intro p u w hrest
          exact h (k :: p) u w (severs_cons_iff.mpr ⟨v, x, hv, hx, hrest⟩)

/-- Merging a layer again changes nothing. Layers may be merged beforehand if there is no path at
which the first and the last have an object and the one between has something else. -/
theorem merge_laws (ha : a.Sorted) (hb : b.Sorted) (hc : c.Sorted) :
    merge (merge a b) b = merge a b ∧
    ((∀ p v, a.HasObject p → c.HasObject p → b.at? p = some v → v.isObject = true) →
      merge (merge a b) c = merge a (merge b c)) := by
  refine ⟨merge_merge_self ha hb, fun h => (merge_assoc_iff ha hb hc).mpr ?_⟩
  intro p u w hsevers
  obtain ⟨v, hv, hno⟩ := hsevers.between
  have hobject := h p v ⟨u, hsevers.first, hsevers.isObject_first⟩
    ⟨w, hsevers.last, hsevers.isObject_last⟩ hv
  rw [hno] at hobject
  cases hobject

theorem merge_laws_sections :
    let a : Json := .obj [("store", .obj [("path", .str "a.db"), ("read_only", .bool true)]),
      ("window", .int 5)]
    let b : Json := .obj [("adjustments", .int 7), ("store", .obj [("path", .null)]),
      ("window", .obj [])]
    let c : Json := .obj [("adjustments", .obj [("scope", .str "all")]),
      ("store", .obj [("path", .str "c.db")])]
    let severing : Json := .obj [("store", .null)]
    a.Sorted ∧ b.Sorted ∧ c.Sorted ∧ merge (merge a b) b = merge a b ∧
      merge (merge a b) c = merge a (merge b c) ∧
      merge (merge a severing) c ≠ merge a (merge severing c) := by
  intro a b c severing
  have hsorted : a.Sorted ∧ b.Sorted ∧ c.Sorted := by
    simp only [a, b, c, Sorted, SortedMembers]
    decide
  obtain ⟨ha, hb, hc⟩ := hsorted
  obtain ⟨hagain, hassoc⟩ := merge_laws ha hb hc
  refine ⟨ha, hb, hc, hagain, hassoc ?_, ?_⟩
  · -- Objects that the first and the last have in common are the root and the store.
    intro p v hfirst hlast hv
    cases p with
    | nil =>
      cases hv
      rfl
    | cons k p =>
      obtain ⟨u, hu, hsection⟩ := hfirst.get?
      obtain ⟨w, hw, -⟩ := hlast.get?
      simp only [a, c, get?, lookup, ite_eq_iff, reduceCtorEq, and_false, or_false] at hu hw
      have hk : "store" = k := by
        rcases hw with ⟨rfl, -⟩ | ⟨-, hk, -⟩
        · simp at hu
        · exact hk
      subst hk
      cases p with
      | nil =>
        cases hv
        rfl
      | cons j p =>
        obtain ⟨-, hu⟩ | ⟨hne, -⟩ := hu
        · cases hu
          obtain ⟨x, hx, y, hy, hyo⟩ := hsection.get?
          have hxo := isObject_of_at? hy hyo
          simp only [get?, lookup, ite_eq_iff, reduceCtorEq, and_false, or_false] at hx
          rcases hx with ⟨-, hx⟩ | ⟨-, -, hx⟩ <;> cases hx <;> cases hxo
        · exact absurd rfl hne
  · intro he
    have hreadOnly := congrArg (·.at? ["store", "read_only"]) he
    cases hreadOnly

end Json

end AsOf
