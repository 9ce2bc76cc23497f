import AsOf.Json.Written
import AsOf.Yaml.Node

namespace AsOf

namespace Json

variable {k j : String} {v w : Json} {l members ms ns : List (String × Json)}

theorem mem_keys_insert : j ∈ (insert k v l).map Prod.fst ↔ j = k ∨ j ∈ l.map Prod.fst := by
  induction l with
  | nil => simp [insert]
  | cons p rest ih =>
    obtain ⟨i, u⟩ := p
    rw [insert]
    split
    · simp
    · split
      · rename_i h
        simp [h]
      · simp only [List.map_cons, List.mem_cons, ih]
        exact or_left_comm

theorem mem_of_mem_insert {p : String × Json} (h : p ∈ insert k v l) : p = (k, v) ∨ p ∈ l := by
  induction l with
  | nil => exact .inl (List.mem_singleton.mp h)
  | cons q rest ih =>
    obtain ⟨i, u⟩ := q
    rw [insert] at h
    split at h
    · exact List.mem_cons.mp h
    · split at h
      · rcases List.mem_cons.mp h with rfl | h
        · exact .inl rfl
        · exact .inr (List.mem_cons_of_mem _ h)
      · rcases List.mem_cons.mp h with rfl | h
        · exact .inr List.mem_cons_self
        · exact (ih h).imp_right (List.mem_cons_of_mem _)

theorem insert_ascending (h : (l.map Prod.fst).Pairwise (· < ·)) :
    ((insert k v l).map Prod.fst).Pairwise (· < ·) := by
  induction l with
  | nil => simp [insert]
  | cons p rest ih =>
    obtain ⟨i, u⟩ := p
    obtain ⟨hi, hrest⟩ := List.pairwise_cons.mp h
    rw [insert]
    split
    · rename_i hlt
      refine List.pairwise_cons.mpr ⟨fun j hj => ?_, h⟩
      rcases List.mem_cons.mp hj with rfl | hj
      · exact hlt
      · exact String.lt_trans hlt (hi j hj)
    · split
      · rename_i he
        subst he
        exact h
      · rename_i hlt hne
        refine List.pairwise_cons.mpr ⟨fun j hj => ?_, ih hrest⟩
        rcases mem_keys_insert.mp hj with rfl | hj
        · exact Decidable.not_not.mp fun hnot =>
            hne (String.le_antisymm (String.not_lt.mp hlt) (String.not_lt.mp hnot))
        · exact hi j hj

theorem lookup_insert (k : String) (v : Json) (l : List (String × Json)) (j : String) :
    lookup j (insert k v l) = if k = j then some v else lookup j l := by
  induction l with
  | nil => rfl
  | cons p rest ih =>
    obtain ⟨i, u⟩ := p
    rw [insert]
    split
    · rfl
    · split
      · rename_i he
        subst he
        by_cases hj : i = j <;> simp [lookup, hj]
      · rename_i hne
        rw [lookup, lookup, ih]
        by_cases hi : i = j
        · have hk : ¬k = j := fun hk => hne (hi.trans hk.symm)
          rw [if_pos hi, if_neg hk, if_pos hi]
        · rw [if_neg hi, if_neg hi]

theorem lookup_eq_none_iff : lookup k l = none ↔ k ∉ l.map Prod.fst := by
  induction l with
  | nil => simp [lookup]
  | cons p rest ih =>
    obtain ⟨i, u⟩ := p
    rw [lookup, List.map_cons, List.mem_cons, not_or, ← ih]
    by_cases hi : i = k
    · simp [hi]
    · simp [hi, Ne.symm hi]

theorem mem_of_lookup (h : lookup k l = some v) : (k, v) ∈ l := by
  induction l with
  | nil => cases h
  | cons p rest ih =>
    obtain ⟨i, u⟩ := p
    rw [lookup] at h
    split at h
    · rename_i he
      cases h
      rw [he]
      exact List.mem_cons_self
    · exact List.mem_cons_of_mem _ (ih h)

theorem lookup_eq_some_iff (h : (l.map Prod.fst).Nodup) : lookup k l = some v ↔ (k, v) ∈ l := by
  refine ⟨mem_of_lookup, fun hm => ?_⟩
  induction l with
  | nil => cases hm
  | cons p rest ih =>
    obtain ⟨i, u⟩ := p
    obtain ⟨hi, hrest⟩ := List.nodup_cons.mp h
    rw [lookup]
    rcases List.mem_cons.mp hm with he | hm
    · cases he
      exact if_pos rfl
    · have hk : k ∈ rest.map Prod.fst := List.mem_map_of_mem hm
      have hne : ¬i = k := fun he => hi (he ▸ hk)
      rw [if_neg hne]
      exact ih hrest hm

theorem nodup_of_ascending {keys : List String} (h : keys.Pairwise (· < ·)) : keys.Nodup := by
  apply h.imp
  rintro a b hlt rfl
  exact String.lt_irrefl a hlt

theorem eq_of_lookup_eq (hm : (ms.map Prod.fst).Pairwise (· < ·))
    (hn : (ns.map Prod.fst).Pairwise (· < ·)) (h : ∀ k, lookup k ms = lookup k ns) : ms = ns := by
  have hmem (p : String × Json) : p ∈ ms ↔ p ∈ ns := by
    rw [← lookup_eq_some_iff (nodup_of_ascending hm), h,
      lookup_eq_some_iff (nodup_of_ascending hn)]
  have hm := List.pairwise_map.mp hm
  have hn := List.pairwise_map.mp hn
  have hne {a b : String × Json} (hlt : a.1 < b.1) : a ≠ b := by
    rintro rfl
    exact String.lt_irrefl _ hlt
  have hperm : ms.Perm ns :=
    (List.perm_ext_iff_of_nodup (hm.imp hne) (hn.imp hne)).mpr hmem
  exact hperm.eq_of_pairwise (fun a b _ _ hab hba => absurd hab (String.lt_asymm hba)) hm hn

theorem sortedItems_iff {items : List Json} : SortedItems items ↔ ∀ v ∈ items, v.Sorted := by
  induction items with
  | nil => simp [SortedItems]
  | cons v rest ih => rw [SortedItems, ih, List.forall_mem_cons]

theorem sortedMembers_iff : SortedMembers l ↔ ∀ p ∈ l, p.2.Sorted := by
  induction l with
  | nil => simp [SortedMembers]
  | cons p rest ih =>
    obtain ⟨k, v⟩ := p
    rw [SortedMembers, ih, List.forall_mem_cons]

theorem Sorted.nodup_keys (h : (obj members).Sorted) : (members.map Prod.fst).Nodup := by
  rw [Sorted] at h
  exact nodup_of_ascending h.1

theorem Sorted.member (h : (obj members).Sorted) {p : String × Json} (hp : p ∈ members) :
    p.2.Sorted := by
  rw [Sorted] at h
  exact sortedMembers_iff.mp h.2 p hp

theorem Sorted.item {items : List Json} (h : (arr items).Sorted) (hv : v ∈ items) : v.Sorted := by
  rw [Sorted] at h
  exact sortedItems_iff.mp h v hv

theorem Sorted.get? (h : v.Sorted) (hk : v.get? k = some w) : w.Sorted := by
  cases v with
  | obj members => exact h.member (mem_of_lookup hk)
  | _ => cases hk

theorem Sorted.insert (h : (obj members).Sorted) (hv : v.Sorted) :
    (obj (insert k v members)).Sorted := by
  rw [Sorted] at h ⊢
  refine ⟨insert_ascending h.1, sortedMembers_iff.mpr fun p hp => ?_⟩
  rcases mem_of_mem_insert hp with rfl | hp
  · exact hv
  · exact sortedMembers_iff.mp h.2 p hp

/-- A property that values have if they are put together from values that have it, and that their
parts have too. -/
structure Hereditary (P : Json → Prop) : Prop where
  null : P .null
  arr {items : List Json} : (∀ v ∈ items, P v) → P (.arr items)
  empty : P (.obj [])
  insert {k : String} {v : Json} {l : List (String × Json)} :
    P (.obj l) → P v → P (.obj (insert k v l))
  cons {p : String × Json} {l : List (String × Json)} : P (.obj (p :: l)) → P p.2 ∧ P (.obj l)

theorem Hereditary.member {P : Json → Prop} (h : Hereditary P) (hl : P (.obj l))
    {p : String × Json} (hp : p ∈ l) : P p.2 := by
  induction l with
  | nil => cases hp
  | cons q rest ih =>
    rcases List.mem_cons.mp hp with rfl | hp
    · exact (h.cons hl).1
    · exact ih (h.cons hl).2 hp

theorem Hereditary.sortMembers {P : Json → Prop} (h : Hereditary P) (hl : ∀ p ∈ l, P p.2) :
    P (.obj (sortMembers l)) := by
  have hfold (l : List (String × Json)) (hl : ∀ p ∈ l, P p.2) (members : List (String × Json))
      (hm : P (.obj members)) :
      P (.obj (l.foldl (fun l p => Json.insert p.1 p.2 l) members)) := by
    induction l generalizing members with
    | nil => exact hm
    | cons p rest ih =>
      obtain ⟨hp, hrest⟩ := List.forall_mem_cons.mp hl
      exact ih hrest _ (h.insert hm hp)
  exact hfold l hl [] h.empty

theorem hereditary_sorted : Hereditary Sorted where
  null := trivial
  arr h := by
    rw [Sorted]
    exact sortedItems_iff.mpr h
  empty := by
    rw [Sorted]
    exact ⟨.nil, trivial⟩
  insert := Sorted.insert
  cons {p l} h := by
    rw [Sorted] at h
    refine ⟨sortedMembers_iff.mp h.2 p List.mem_cons_self, ?_⟩
    rw [Sorted]
    exact ⟨(List.pairwise_cons.mp h.1).2, h.2.2⟩

end Json

namespace Yaml.Node

theorem sorted_atomJson (a : Atom) : (atomJson a).Sorted := by
  cases a with
  | float x =>
    rw [atomJson, Json.ofFloat]
    split <;> trivial
  | _ => trivial

variable {P : Json → Prop}

mutual

theorem hereditary_json? (h : Json.Hereditary P) (hatom : ∀ a, P (atomJson a)) :
    ∀ (n : Node) {v : Json}, n.json? = some v → P v
  | .atom a, _, hv => by
    cases hv
    exact hatom a
  | .seq items, _, hv => by
    rw [json?] at hv
    obtain ⟨vs, hvs, rfl⟩ := Option.map_eq_some_iff.mp hv
    exact h.arr (hereditary_itemsJson? h hatom items hvs)
  | .map entries, _, hv => by
    rw [json?] at hv
    obtain ⟨ms, hms, rfl⟩ := Option.map_eq_some_iff.mp hv
    exact h.sortMembers (hereditary_entriesJson? h hatom entries hms)
  | .tagged tag content, _, hv => by
    rw [json?] at hv
    obtain ⟨w, hw, rfl⟩ := Option.map_eq_some_iff.mp hv
    exact h.insert h.empty (hereditary_json? h hatom content hw)

theorem hereditary_itemsJson? (h : Json.Hereditary P) (hatom : ∀ a, P (atomJson a)) :
    ∀ (items : List Node) {vs : List Json}, itemsJson? items = some vs → ∀ v ∈ vs, P v
  | [], _, hvs => by
    cases hvs
    simp
  | n :: rest, _, hvs => by
    rw [itemsJson?] at hvs
    simp only [Option.bind_eq_bind, Option.bind_eq_some_iff, Option.pure_def,
      Option.some.injEq] at hvs
    obtain ⟨v, hv, vs, hvs, rfl⟩ := hvs
    exact List.forall_mem_cons.mpr
      ⟨hereditary_json? h hatom n hv, hereditary_itemsJson? h hatom rest hvs⟩

theorem hereditary_entriesJson? (h : Json.Hereditary P) (hatom : ∀ a, P (atomJson a)) :
    ∀ (entries : List (Node × Node)) {ms : List (String × Json)},
      entriesJson? entries = some ms → ∀ p ∈ ms, P p.2
  | [], _, hms => by
    cases hms
    simp
  | (k, n) :: rest, _, hms => by
    rw [entriesJson?] at hms
    simp only [Option.bind_eq_bind, Option.bind_eq_some_iff, Option.pure_def,
      Option.some.injEq] at hms
    obtain ⟨k, -, v, hv, ms, hms, rfl⟩ := hms
    exact List.forall_mem_cons.mpr
      ⟨hereditary_json? h hatom n hv, hereditary_entriesJson? h hatom rest hms⟩

end

end Yaml.Node

end AsOf
