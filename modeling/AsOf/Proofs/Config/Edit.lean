import AsOf.Proofs.Config.Settings

namespace AsOf

namespace Json

variable {v v' w u : Json} {p : List Step} {q : List String} {new : Option Json}
variable {members : List (String × Json)} {items : List Json} {f : Json → Option Json}
variable {k j : String} {i : Nat}

def editMember (f : Json → Option Json) (k : String) (members : List (String × Json)) :
    List (String × Json) :=
  members.filterMap fun m => if m.1 = k then (f m.2).map (m.1, ·) else some m

/-- The items with one of them changed, or without it; those after it then move up. -/
def editItem (f : Json → Option Json) (i : Nat) (items : List Json) : List Json :=
  items.take i ++ (items[i]?.bind f).toList ++ items.drop (i + 1)

/-- The value with a new one at the end of some steps, or with what is there taken away from the
object or the list that holds it. Nothing is left if that is the value itself. -/
def edit (new : Option Json) : List Step → Json → Option Json
  | [], _ => new
  | .key k :: rest, .obj members => some (.obj (editMember (edit new rest) k members))
  | .item i :: rest, .arr items => some (.arr (editItem (edit new rest) i items))
  | _, v => some v

theorem sorted_of_isScalar (h : v.isScalar = true) : v.Sorted := by
  cases v with
  | arr items => cases h
  | obj members => cases h
  | _ => trivial

theorem mem_editMember : (j, u) ∈ editMember f k members ↔
    j ≠ k ∧ (j, u) ∈ members ∨ j = k ∧ ∃ w, (k, w) ∈ members ∧ f w = some u := by
  simp only [editMember, List.mem_filterMap, Prod.exists]
  constructor
  · rintro ⟨i, w, hm, he⟩
    split at he
    · rename_i hk
      obtain ⟨u', hu, he⟩ := Option.map_eq_some_iff.mp he
      cases he
      exact .inr ⟨hk, w, hk ▸ hm, hu⟩
    · rename_i hk
      cases he
      exact .inl ⟨hk, hm⟩
  · rintro (⟨hk, hm⟩ | ⟨rfl, w, hm, hw⟩)
    · exact ⟨j, u, hm, if_neg hk⟩
    · refine ⟨j, w, hm, ?_⟩
      rw [if_pos rfl, hw]
      rfl

theorem keys_editMember (f : Json → Option Json) (k : String) (members : List (String × Json)) :
    ((editMember f k members).map Prod.fst).Sublist (members.map Prod.fst) := by
  induction members with
  | nil => exact .slnil
  | cons m members ih =>
    obtain ⟨j, w⟩ := m
    rw [editMember, List.filterMap_cons]
    split
    · exact .cons j ih
    · rename_i m' hm
      have hkey : m'.1 = j := by
        split at hm
        · obtain ⟨u, -, rfl⟩ := Option.map_eq_some_iff.mp hm
          rfl
        · cases hm
          rfl
      rw [List.map_cons, List.map_cons, hkey]
      exact .cons_cons j ih

theorem lookup_editMember (h : (members.map Prod.fst).Nodup) (hm : (k, v) ∈ members)
    (j : String) :
    lookup j (editMember f k members) = if j = k then f v else lookup j members := by
  have hkeys := h.sublist (keys_editMember f k members)
  apply Option.ext
  intro u
  rw [lookup_eq_some_iff hkeys, mem_editMember]
  split
  · rename_i hj
    subst hj
    constructor
    · rintro (⟨hne, -⟩ | ⟨-, w, hw, hu⟩)
      · exact absurd rfl hne
      · have hlookup := (lookup_eq_some_iff h).mpr hm
        rw [(lookup_eq_some_iff h).mpr hw] at hlookup
        cases hlookup
        exact hu
    · intro hu
      exact .inr ⟨rfl, v, hm, hu⟩
  · rename_i hj
    rw [lookup_eq_some_iff h]
    exact ⟨fun hor => hor.elim And.right fun hand => absurd hand.1 hj, fun hu => .inl ⟨hj, hu⟩⟩

theorem mem_editItem (h : u ∈ editItem f i items) : u ∈ items ∨ ∃ w ∈ items, f w = some u := by
  rcases List.mem_append.mp h with h | h
  · rcases List.mem_append.mp h with h | h
    · exact .inl (List.mem_of_mem_take h)
    · obtain ⟨w, hw, hu⟩ := Option.bind_eq_some_iff.mp (Option.mem_toList.mp h)
      exact .inr ⟨w, List.mem_of_getElem? hw, hu⟩
  · exact .inl (List.mem_of_mem_drop h)

theorem getElem?_editItem (hi : items[i]? = some v) (hu : f v = some u) :
    (editItem f i items)[i]? = some u := by
  obtain ⟨hlt, -⟩ := List.getElem?_eq_some_iff.mp hi
  have hlength : (items.take i).length = i := List.length_take_of_le (Nat.le_of_lt hlt)
  rw [editItem, hi, Option.bind_some, hu, List.append_assoc, List.getElem?_append_right
    (Nat.le_of_eq hlength), hlength, Nat.sub_self]
  rfl

theorem Sorted.edit (hv : v.Sorted) (hnew : ∀ u ∈ new, u.Sorted) (h : v.edit new p = some v') :
    v'.Sorted := by
  induction p generalizing v v' with
  | nil => exact hnew v' h
  | cons step p ih =>
    have hsame (he : v.edit new (step :: p) = some v) : v'.Sorted := by
      rw [he] at h
      cases h
      exact hv
    cases v with
    | obj members =>
      cases step with
      | item i => exact hsame rfl
      | key k =>
        cases h
        have hmembers (m : String × Json) (hm : m ∈ members) : m.2.Sorted := hv.member hm
        rw [Sorted] at hv ⊢
        refine ⟨hv.1.sublist (keys_editMember _ k members), sortedMembers_iff.mpr ?_⟩
        rintro ⟨j, u⟩ hm
        rcases mem_editMember.mp hm with ⟨-, hm⟩ | ⟨-, w, hw, hu⟩
        · exact hmembers _ hm
        · exact ih (hmembers _ hw) hu
    | arr items =>
      cases step with
      | key k => exact hsame rfl
      | item i =>
        cases h
        rw [Sorted, sortedItems_iff]
        intro u hu
        rcases mem_editItem hu with hu | ⟨w, hw, hu⟩
        · exact hv.item hu
        · exact ih (hv.item hw) hu
    | _ => exact hsame (by cases step <;> rfl)

namespace LeafAt

theorem edit_some (h : v.LeafAt p w) (hu : u.isScalar = true) :
    ∃ v', v.edit (some u) p = some v' ∧ v'.LeafAt p u := by
  induction h with
  | here h => exact ⟨u, rfl, .here hu⟩
  | @key members k v w p hk h ih =>
    obtain ⟨v', hv', hleaf⟩ := ih
    exact ⟨_, rfl, .key (mem_editMember.mpr (.inr ⟨rfl, v, hk, hv'⟩)) hleaf⟩
  | @item items i v w p hi h ih =>
    obtain ⟨v', hv', hleaf⟩ := ih
    exact ⟨_, rfl, .item (getElem?_editItem hi hv') hleaf⟩

/-- An edit of a leaf is not seen at places that do not lead to it or end on the way to it. -/
theorem at?_edit (h : v.LeafAt p w) (hv : v.Sorted) (hnew : ∀ u ∈ new, u.isScalar = true)
    (hq : ¬q <+: Step.pointer p) : (v.edit new p).bind (·.at? q) = v.at? q := by
  induction h generalizing q with
  | @here v h =>
    cases q with
    | nil => exact absurd List.prefix_rfl hq
    | cons j q =>
      have hnone {u : Json} (hu : u.isScalar = true) : u.at? (j :: q) = none := by
        rw [at?, get?_of_not_isObject (isObject_of_isScalar hu)]
        rfl
      rw [hnone h, Option.bind_eq_none_iff]
      exact fun u hu => hnone (hnew u hu)
  | @key members k v w p hk h ih =>
    cases q with
    | nil => exact absurd List.nil_prefix hq
    | cons j q =>
      change (lookup j (editMember (Json.edit new p) k members)).bind (·.at? q) =
        (lookup j members).bind (·.at? q)
      rw [lookup_editMember hv.nodup_keys hk]
      split
      · rename_i hj
        subst hj
        rw [(lookup_eq_some_iff hv.nodup_keys).mpr hk]
        exact ih (hv.member hk) fun hrest => hq (List.cons_prefix_cons.mpr ⟨rfl, hrest⟩)
      · rfl
  | @item items i v w p hi h ih =>
    cases q with
    | nil => exact absurd List.nil_prefix hq
    | cons j q => rfl

end LeafAt

theorem edit_isSome (new : Option Json) (v : Json) (hp : p ≠ []) :
    ∃ v', v.edit new p = some v' := by
  cases p with
  | nil => exact absurd rfl hp
  | cons step p => cases step <;> cases v <;> exact ⟨_, rfl⟩

end Json

namespace Settings

variable {v v' : Json}

theorem read_congr (h : ∀ s : Setting, s.read? v = s.read? v') : read v = read v' := by
  unfold read readPath readMaxParams readScope readLength readNumber readFlag
  simp only [h]

end Settings

namespace Json

variable {v w : Json} {p : List Step}

/-- An unused leaf is not read: with any other scalar in its place, and without it, a configuration
gives the same settings or the same fault. -/
theorem unused_leaf_unread (hv : v.Sorted) {report : UnusedReport}
    (hreport : v.reportUnused .warn = .ok report) (h : v.LeafAt p w)
    (hunused : (Step.pointer p).leafText ∈ report.unused) :
    (∀ u : Json, u.isScalar = true → ∃ v', v.edit (some u) p = some v' ∧ v'.Sorted ∧
      v'.LeafAt p u ∧ Settings.read v' = Settings.read v) ∧
    (p ≠ [] → ∃ v', v.edit none p = some v' ∧ v'.Sorted ∧ Settings.read v' = Settings.read v) := by
  cases hreport
  obtain ⟨p', w', h', hno, htext⟩ := mem_unusedPlaces_iff.mp hunused
  obtain ⟨rfl, rfl⟩ := h'.eq_of_leafText hv h htext
  have hread {new : Option Json} {v' : Json} (hnew : ∀ u ∈ new, u.isScalar = true)
      (hv' : v.edit new p' = some v') : Settings.read v' = Settings.read v := by
    apply Settings.read_congr
    intro s
    have hedit := h.at?_edit hv hnew (hno s)
    rw [hv', Option.bind_some] at hedit
    rw [Setting.read?_eq, Setting.read?_eq, hedit]
  refine ⟨fun u hu => ?_, fun hp => ?_⟩
  · obtain ⟨v', hv', hleaf⟩ := h.edit_some hu
    have hnew : ∀ u' ∈ some u, u'.isScalar = true := fun u' hu' => by
      cases hu'
      exact hu
    exact ⟨v', hv', hv.edit (fun u' hu' => sorted_of_isScalar (hnew u' hu')) hv', hleaf,
      hread hnew hv'⟩
  · obtain ⟨v', hv'⟩ := edit_isSome none v hp
    exact ⟨v', hv', hv.edit (fun u hu => by cases hu) hv', hread (fun u hu => by cases hu) hv'⟩

theorem unused_leaf_unread_sections :
    let store : Json := .obj [("path", .str "a.db")]
    let v : Json := .obj [("adjustments", .arr [.obj [], .null, .int 7]), ("store", store),
      ("window", .int 5)]
    let replaced : Json := .obj [("adjustments", .arr [.obj [], .null, .int 7]), ("store", store),
      ("window", .bool true)]
    let removed : Json := .obj [("adjustments", .arr [.obj [], .int 7]), ("store", store),
      ("window", .int 5)]
    let c : Settings := ⟨"a.db", 999, true, true, true, true, .all, none⟩
    v.Sorted ∧ v.edit (some (.bool true)) [.key "window"] = some replaced ∧
      v.edit none [.key "adjustments", .item 1] = some removed ∧
      Settings.read replaced = .ok c ∧ Settings.read removed = .ok c := by
  intro store v replaced removed c
  have hsorted : v.Sorted := by
    simp only [v, store, Sorted, SortedMembers, SortedItems]
    decide
  have hread : Settings.read v = .ok c := rfl
  have hunused {p : List Step} {w : Json} (h : v.LeafAt p w)
      (hno : ∀ s : Setting, ¬s.pointer <+: Step.pointer p) :
      (Step.pointer p).leafText ∈ v.unusedPlaces := mem_unusedPlaces_iff.mpr ⟨p, w, h, hno, rfl⟩
  have hwindow : v.LeafAt [.key "window"] (.int 5) :=
    .key (List.mem_of_mem_getLast? rfl) (.here rfl)
  have hitem : v.LeafAt [.key "adjustments", .item 1] .null :=
    .key List.mem_cons_self (.item rfl (.here rfl))
  obtain ⟨v', hv', -, -, hsame⟩ := (unused_leaf_unread hsorted rfl hwindow
    (hunused hwindow fun s => by cases s <;> decide)).1 (.bool true) rfl
  obtain ⟨v'', hv'', -, hsame'⟩ := (unused_leaf_unread hsorted rfl hitem
    (hunused hitem fun s => by cases s <;> decide +kernel)).2 (List.cons_ne_nil _ _)
  cases hv'
  cases hv''
  exact ⟨hsorted, rfl, rfl, hsame.trans hread, hsame'.trans hread⟩

end Json

end AsOf
