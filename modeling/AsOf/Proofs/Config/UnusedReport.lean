import AsOf.Proofs.Config.PointerText
import AsOf.Proofs.Decimal.Digits
import AsOf.Proofs.Json.Sorted

namespace AsOf

variable {l : List String} {t : String}

theorem mem_dropRepeats : t ∈ dropRepeats l ↔ t ∈ l := by
  fun_induction dropRepeats l with
  | case1 a rest ih => simp [ih]
  | case2 a b rest hne ih => rw [List.mem_cons, ih, ← List.mem_cons]
  | case3 l => exact Iff.rfl

theorem dropRepeats_ascending (h : l.Pairwise (· ≤ ·)) : (dropRepeats l).Pairwise (· < ·) := by
  fun_induction dropRepeats l with
  | case1 a rest ih => exact ih h.tail
  | case2 a b rest hne ih =>
    obtain ⟨ha, hrest⟩ := List.pairwise_cons.mp h
    have hab : a < b :=
      String.not_le.mp fun hba => hne (String.le_antisymm (ha b List.mem_cons_self) hba)
    refine List.pairwise_cons.mpr ⟨fun c hc => ?_, ih hrest⟩
    rcases List.mem_cons.mp (mem_dropRepeats.mp hc) with rfl | hc
    · exact hab
    · have hbc : b ≤ c := (List.pairwise_cons.mp hrest).1 c hc
      exact String.not_le.mp fun hca => String.not_le.mpr hab (String.le_trans hbc hca)
  | case3 l hshort =>
    match l with
    | [] => exact .nil
    | [a] => exact List.pairwise_singleton _ a
    | a :: b :: rest => exact absurd rfl (hshort a b rest)

theorem mem_sortTexts : t ∈ sortTexts l ↔ t ∈ l := by
  rw [sortTexts, mem_dropRepeats, List.mem_mergeSort]

theorem sortTexts_ascending (l : List String) : (sortTexts l).Pairwise (· < ·) := by
  have hsorted : (l.mergeSort fun a b => !(b < a)).Pairwise fun a b => !(b < a) := by
    apply List.pairwise_mergeSort
    · intro a b c hab hbc
      simp only [Bool.not_eq_true', decide_eq_false_iff_not, String.not_lt] at hab hbc ⊢
      exact String.le_trans hab hbc
    · intro a b
      simp only [Bool.or_eq_true, Bool.not_eq_true', decide_eq_false_iff_not, String.not_lt]
      exact String.le_total a b
  refine dropRepeats_ascending (hsorted.imp fun hab => ?_)
  simpa only [Bool.not_eq_true', decide_eq_false_iff_not, String.not_lt] using hab

namespace Json

/-- A step into a value: to a member of an object, or to an item of a list. -/
inductive Step where
  | key (k : String)
  | item (i : Nat)

def Step.token : Step → String
  | .key k => k
  | .item i => String.ofList (Decimal.digits i)

def Step.pointer (p : List Step) : Pointer := p.map Step.token

def isScalar : Json → Bool
  | .arr _ => false
  | .obj _ => false
  | _ => true

/-- The steps lead from a value to a scalar in it. -/
inductive LeafAt : Json → List Step → Json → Prop
  | here {v : Json} (h : v.isScalar = true) : LeafAt v [] v
  | key {members : List (String × Json)} {k : String} {v w : Json} {p : List Step}
      (hk : (k, v) ∈ members) (h : LeafAt v p w) : LeafAt (.obj members) (.key k :: p) w
  | item {items : List Json} {i : Nat} {v w : Json} {p : List Step}
      (hi : items[i]? = some v) (h : LeafAt v p w) : LeafAt (.arr items) (.item i :: p) w

variable {v w u : Json} {p q : List Step} {place target : Pointer} {i : Nat}
variable {items : List Json} {members : List (String × Json)}

theorem leafAt_of_isScalar (h : v.isScalar = true) : v.LeafAt p w ↔ p = [] ∧ w = v := by
  constructor
  · intro hleaf
    cases hleaf with
    | here => exact ⟨rfl, rfl⟩
    | key => cases h
    | item => cases h
  · rintro ⟨rfl, rfl⟩
    exact .here h

theorem leafAt_obj_iff :
    (obj members).LeafAt p w ↔
      ∃ k v rest, p = .key k :: rest ∧ (k, v) ∈ members ∧ v.LeafAt rest w := by
  constructor
  · intro hleaf
    cases hleaf with
    | here h => cases h
    | key hk h => exact ⟨_, _, _, rfl, hk, h⟩
  · rintro ⟨k, v, rest, rfl, hk, h⟩
    exact .key hk h

theorem leafAt_arr_iff :
    (arr items).LeafAt p w ↔
      ∃ i v rest, p = .item i :: rest ∧ items[i]? = some v ∧ v.LeafAt rest w := by
  constructor
  · intro hleaf
    cases hleaf with
    | here h => cases h
    | item hi h => exact ⟨_, _, _, rfl, hi, h⟩
  · rintro ⟨i, v, rest, rfl, hi, h⟩
    exact .item hi h

theorem leavesBelow_of_isScalar (h : v.isScalar = true) (place : Pointer) :
    v.leavesBelow place = [place] := by
  cases v with
  | arr items => cases h
  | obj members => cases h
  | _ => rfl

theorem mem_leavesBelow_of_isScalar (h : v.isScalar = true) :
    target ∈ v.leavesBelow place ↔ ∃ p w, v.LeafAt p w ∧ target = place ++ Step.pointer p := by
  simp [leavesBelow_of_isScalar h, leafAt_of_isScalar h, Step.pointer]

theorem Step.token_item_injective {i j : Nat} (h : (item i).token = (item j).token) : i = j := by
  have hdigits : Decimal.digits i = Decimal.digits j := String.ofList_injective h
  rw [← Decimal.numeral_digits i, hdigits, Decimal.numeral_digits]

theorem LeafAt.pointer_eq_nil_iff (h : v.LeafAt p w) : Step.pointer p = [] ↔ v.isScalar = true := by
  cases h with
  | here h => exact ⟨fun _ => h, fun _ => rfl⟩
  | key => exact iff_of_false (List.cons_ne_nil _ _) Bool.false_ne_true
  | item => exact iff_of_false (List.cons_ne_nil _ _) Bool.false_ne_true

mutual

theorem mem_leavesBelow_iff : ∀ (v : Json) {place target : Pointer},
    target ∈ v.leavesBelow place ↔ ∃ p w, v.LeafAt p w ∧ target = place ++ Step.pointer p
  | .arr items, place, target => by
    simp only [leavesBelow, mem_itemLeaves_iff items, Nat.zero_add, leafAt_arr_iff]
    constructor
    · rintro ⟨i, v, p, w, hi, h, rfl⟩
      exact ⟨_, w, ⟨i, v, p, rfl, hi, h⟩, rfl⟩
    · rintro ⟨_, w, ⟨i, v, p, rfl, hi, h⟩, rfl⟩
      exact ⟨i, v, p, w, hi, h, rfl⟩
  | .obj members, place, target => by
    simp only [leavesBelow, mem_memberLeaves_iff members, leafAt_obj_iff]
    constructor
    · rintro ⟨k, v, p, w, hk, h, rfl⟩
      exact ⟨_, w, ⟨k, v, p, rfl, hk, h⟩, rfl⟩
    · rintro ⟨_, w, ⟨k, v, p, rfl, hk, h⟩, rfl⟩
      exact ⟨k, v, p, w, hk, h, rfl⟩
  | .null, _, _ | .bool _, _, _ | .int _, _, _ | .float _, _, _ | .str _, _, _ =>
    mem_leavesBelow_of_isScalar rfl

theorem mem_itemLeaves_iff : ∀ (items : List Json) {place target : Pointer} {i : Nat},
    target ∈ itemLeaves place i items ↔ ∃ j v p w, items[j]? = some v ∧ v.LeafAt p w ∧
      target = place ++ (Step.item (i + j)).token :: Step.pointer p
  | [], place, target, i => by simp [itemLeaves]
  | v :: rest, place, target, i => by
    simp only [itemLeaves, List.mem_append, mem_leavesBelow_iff v, mem_itemLeaves_iff rest]
    constructor
    · rintro (⟨p, w, h, rfl⟩ | ⟨j, u, p, w, hj, h, rfl⟩)
      · exact ⟨0, v, p, w, rfl, h, (List.append_cons _ _ _).symm⟩
      · exact ⟨j + 1, u, p, w, hj, h, by rw [Nat.add_assoc, Nat.add_comm 1]⟩
    · rintro ⟨j, u, p, w, hj, h, rfl⟩
      cases j with
      | zero =>
        cases hj
        exact .inl ⟨p, w, h, List.append_cons _ _ _⟩
      | succ j => exact .inr ⟨j, u, p, w, hj, h, by rw [Nat.add_assoc, Nat.add_comm 1]⟩

theorem mem_memberLeaves_iff : ∀ (members : List (String × Json)) {place target : Pointer},
    target ∈ memberLeaves place members ↔ ∃ k v p w, (k, v) ∈ members ∧ v.LeafAt p w ∧
      target = place ++ k :: Step.pointer p
  | [], place, target => by simp [memberLeaves]
  | (k, v) :: rest, place, target => by
    simp only [memberLeaves, List.mem_append, mem_leavesBelow_iff v, mem_memberLeaves_iff rest]
    constructor
    · rintro (⟨p, w, h, rfl⟩ | ⟨j, u, p, w, hj, h, rfl⟩)
      · exact ⟨k, v, p, w, List.mem_cons_self, h, (List.append_cons _ _ _).symm⟩
      · exact ⟨j, u, p, w, List.mem_cons_of_mem _ hj, h, rfl⟩
    · rintro ⟨j, u, p, w, hj, h, rfl⟩
      rcases List.mem_cons.mp hj with he | hj
      · cases he
        exact .inl ⟨p, w, h, List.append_cons _ _ _⟩
      · exact .inr ⟨j, u, p, w, hj, h, rfl⟩

end

theorem mem_leaves_iff : target ∈ v.leaves ↔ ∃ p w, v.LeafAt p w ∧ target = Step.pointer p :=
  mem_leavesBelow_iff v

namespace LeafAt

theorem resolve? (h : v.LeafAt p w) (hv : v.Sorted) :
    Pointer.resolve? v (Step.pointer p) = some w := by
  induction h with
  | here => rfl
  | @key members k v w p hk h ih =>
    have hlookup : lookup k members = some v := (lookup_eq_some_iff hv.nodup_keys).mpr hk
    change (lookup k members).bind (Pointer.resolve? · (Step.pointer p)) = some w
    rw [hlookup]
    exact ih (hv.member hk)
  | @item items i v w p hi h ih =>
    change (Pointer.index? (String.ofList (Decimal.digits i))).bind _ = some w
    rw [Pointer.index?_digits, Option.bind_some, hi]
    exact ih (hv.item (List.mem_of_getElem? hi))

/-- The steps to a leaf, and the leaf, are determined by its pointer. Keys and indices cannot be
mistaken for each other, since a value has either the ones or the others. -/
theorem unique (h : v.LeafAt p w) (hv : v.Sorted) (h' : v.LeafAt q u)
    (he : Step.pointer p = Step.pointer q) : p = q ∧ w = u := by
  induction h generalizing q with
  | here h =>
    obtain ⟨rfl, rfl⟩ := (leafAt_of_isScalar h).mp h'
    exact ⟨rfl, rfl⟩
  | @key members k v w p hk h ih =>
    obtain ⟨k', v', rest, rfl, hk', h'⟩ := leafAt_obj_iff.mp h'
    obtain ⟨hkey, hrest⟩ := List.cons.inj he
    obtain rfl : k = k' := hkey
    have hlookup := (lookup_eq_some_iff hv.nodup_keys).mpr hk
    rw [(lookup_eq_some_iff hv.nodup_keys).mpr hk'] at hlookup
    cases hlookup
    obtain ⟨rfl, rfl⟩ := ih (hv.member hk) h' hrest
    exact ⟨rfl, rfl⟩
  | @item items i v w p hi h ih =>
    obtain ⟨i', v', rest, rfl, hi', h'⟩ := leafAt_arr_iff.mp h'
    obtain ⟨htoken, hrest⟩ := List.cons.inj he
    obtain rfl := Step.token_item_injective htoken
    rw [hi] at hi'
    cases hi'
    obtain ⟨rfl, rfl⟩ := ih (hv.item (List.mem_of_getElem? hi)) h' hrest
    exact ⟨rfl, rfl⟩

end LeafAt

end Json

namespace Pointer

theorem normalizePlace_setting (s : Setting) :
    normalizePlace s.pointer.text = s.pointer.text := by
  cases s <;> rfl

theorem isUsed_iff {p : Pointer} : p.isUsed = true ↔ ∃ s : Setting, s.pointer <+: p := by
  have hlong (s : Setting) : 1 < s.pointer.length := by
    cases s <;> decide
  simp only [isUsed, List.any_eq_true, usedPlaces, normalizePlace_setting, mem_sortTexts,
    List.mem_map]
  constructor
  · rintro ⟨_, ⟨s, -, rfl⟩, hs⟩
    exact ⟨s, (coversText_leafText (hlong s)).mp hs⟩
  · rintro ⟨s, hs⟩
    exact ⟨_, ⟨s, s.mem_all, rfl⟩, (coversText_leafText (hlong s)).mpr hs⟩

theorem leafText_inj {p q : Pointer} (hroot : p = [] ↔ q = []) (h : p.leafText = q.leafText) :
    p = q := by
  by_cases hp : p = []
  · rw [hp, hroot.mp hp]
  · rw [leafText_of_ne_nil hp, leafText_of_ne_nil (mt hroot.mpr hp)] at h
    exact text_injective h

end Pointer

namespace Json

variable {v w u : Json} {p q : List Step} {t : String}

theorem mem_unusedPlaces_iff : t ∈ v.unusedPlaces ↔ ∃ p w, v.LeafAt p w ∧
    (∀ s : Setting, ¬s.pointer <+: Step.pointer p) ∧ (Step.pointer p).leafText = t := by
  simp only [unusedPlaces, mem_sortTexts, List.mem_map, List.mem_filter, mem_leaves_iff,
    Bool.not_eq_true', Bool.eq_false_iff, ne_eq, Pointer.isUsed_iff, not_exists]
  constructor
  · rintro ⟨_, ⟨⟨p, w, h, rfl⟩, hunused⟩, rfl⟩
    exact ⟨p, w, h, hunused, rfl⟩
  · rintro ⟨p, w, h, hunused, rfl⟩
    exact ⟨_, ⟨⟨p, w, h, rfl⟩, hunused⟩, rfl⟩

theorem LeafAt.eq_of_leafText (h : v.LeafAt p w) (hv : v.Sorted) (h' : v.LeafAt q u)
    (he : (Step.pointer p).leafText = (Step.pointer q).leafText) : p = q ∧ w = u := by
  -- The text of a leaf at the root is also that of an empty key, but no value has both.
  have hroot : Step.pointer p = [] ↔ Step.pointer q = [] :=
    h.pointer_eq_nil_iff.trans h'.pointer_eq_nil_iff.symm
  exact h.unique hv h' (Pointer.leafText_inj hroot he)

theorem LeafAt.parse?_leafText (h : v.LeafAt p w) (hroot : v.isScalar = false) :
    Pointer.parse? (Step.pointer p).leafText = some (Step.pointer p) := by
  have hne : Step.pointer p ≠ [] := by
    rw [ne_eq, h.pointer_eq_nil_iff, hroot]
    exact Bool.false_ne_true
  rw [Pointer.leafText_of_ne_nil hne, Pointer.parse?_text]

theorem unusedPlaces_ascending (v : Json) : v.unusedPlaces.Pairwise (· < ·) := sortTexts_ascending _

theorem unusedPlaces_of_isScalar (h : v.isScalar = true) : v.unusedPlaces = ["/"] := by
  have hleaves : v.leaves = [[]] := leavesBelow_of_isScalar h []
  have hunused : Pointer.isUsed [] = false := by
    rw [Bool.eq_false_iff, ne_eq, Pointer.isUsed_iff]
    rintro ⟨s, hs⟩
    cases s <;> exact absurd (List.prefix_nil.mp hs) (List.cons_ne_nil _ _)
  rw [unusedPlaces, hleaves, List.filter_cons_of_pos (by rw [hunused]; rfl), List.filter_nil,
    List.map_singleton, sortTexts, List.mergeSort_singleton]
  rfl

/-- The report is exact: it lists the texts of the leaves that no setting is read from, each once,
under either policy, and the strict one fails if there are any. Two leaves never share a text, and
below an object or a list the text of a leaf is read as its pointer and leads to it. -/
theorem unused_report_exact (v : Json) (hv : v.Sorted) :
    let text (p : List Step) := (Step.pointer p).leafText
    ∃ report, v.reportUnused .warn = .ok report ∧
      report.unused.Pairwise (· < ·) ∧
      (∀ t, t ∈ report.unused ↔
        ∃ p w, v.LeafAt p w ∧ (∀ s : Setting, ¬s.pointer <+: Step.pointer p) ∧ text p = t) ∧
      (∀ p w q u, v.LeafAt p w → v.LeafAt q u → text p = text q → p = q ∧ w = u) ∧
      (v.isScalar = true → report.unused = ["/"]) ∧
      (v.isScalar = false → ∀ p w, v.LeafAt p w →
        Pointer.parse? (text p) = some (Step.pointer p) ∧
          Pointer.resolve? v (Step.pointer p) = some w) ∧
      (∀ r, v.reportUnused .fail = .ok r ↔ report.unused = [] ∧ r = report) ∧
      (report.unused ≠ [] → v.reportUnused .fail = .error ⟨report.unused⟩) := by
  intro text
  refine ⟨⟨usedPlaces, v.unusedPlaces⟩, rfl, v.unusedPlaces_ascending,
    fun t => mem_unusedPlaces_iff, fun p w q u h h' he => h.eq_of_leafText hv h' he,
    unusedPlaces_of_isScalar, fun hroot p w h => ⟨h.parse?_leafText hroot, h.resolve? hv⟩,
    fun r => ?_, fun hsome => ?_⟩
  · cases hunused : v.unusedPlaces with
    | nil => simp [reportUnused, UnusedReport.isClean, hunused, eq_comm]
    | cons t rest => simp [reportUnused, UnusedReport.isClean, hunused]
  · simpa [reportUnused, UnusedReport.isClean] using hsome

/-- An empty key, keys with slashes and tildes, indices, and a key that only begins like that of a
setting. -/
theorem unused_report_exact_escapes :
    let v : Json := .obj [("", .null), ("a/b", .obj [("~1", .arr [.bool true, .str "x"])]),
      ("store", .obj [("path", .str "a.db"), ("pathx", .int 3)])]
    v.Sorted ∧ ∃ report, v.reportUnused .warn = .ok report ∧
      "/" ∈ report.unused ∧ "/a~1b/~01/1" ∈ report.unused ∧ "/store/pathx" ∈ report.unused ∧
      "/store/path" ∉ report.unused ∧
      (Pointer.parse? "/a~1b/~01/1").bind (Pointer.resolve? v) = some (.str "x") ∧
      v.reportUnused .fail = .error ⟨report.unused⟩ := by
  intro v
  have hsorted : v.Sorted := by
    simp only [v, Sorted, SortedMembers, SortedItems]
    decide
  have hempty : v.LeafAt [.key ""] .null := .key List.mem_cons_self (.here rfl)
  have hstore : ("store", Json.obj [("path", .str "a.db"), ("pathx", .int 3)]) ∈
      [("", .null), ("a/b", Json.obj [("~1", .arr [.bool true, .str "x"])]),
        ("store", .obj [("path", .str "a.db"), ("pathx", .int 3)])] :=
    List.mem_cons_of_mem _ (List.mem_cons_of_mem _ List.mem_cons_self)
  have hpath : v.LeafAt [.key "store", .key "path"] (.str "a.db") :=
    .key hstore (.key List.mem_cons_self (.here rfl))
  have hpathx : v.LeafAt [.key "store", .key "pathx"] (.int 3) :=
    .key hstore (.key (List.mem_cons_of_mem _ List.mem_cons_self) (.here rfl))
  have hlist : (arr [.bool true, .str "x"]).LeafAt [.item 1] (.str "x") := .item rfl (.here rfl)
  have hitem : v.LeafAt [.key "a/b", .key "~1", .item 1] (.str "x") :=
    .key (List.mem_cons_of_mem _ List.mem_cons_self) (.key List.mem_cons_self hlist)
  have hsteps : Step.pointer [.key "a/b", .key "~1", .item 1] = ["a/b", "~1", "1"] := by
    decide +kernel
  have htext : (Step.pointer [.key "a/b", .key "~1", .item 1]).leafText = "/a~1b/~01/1" := by
    decide +kernel
  obtain ⟨report, hwarn, -, hmem, hdistinct, -, hback, -, hfail⟩ := v.unused_report_exact hsorted
  have hx : "/a~1b/~01/1" ∈ report.unused := by
    refine (hmem _).mpr ⟨_, _, hitem, fun s => ?_, htext⟩
    rw [hsteps]
    cases s <;> decide
  refine ⟨hsorted, report, hwarn, (hmem _).mpr ⟨_, _, hempty, fun s => ?_, rfl⟩, hx,
    (hmem _).mpr ⟨_, _, hpathx, fun s => ?_, rfl⟩, fun hreported => ?_, ?_,
    hfail (List.ne_nil_of_mem hx)⟩
  · cases s <;> decide
  · cases s <;> decide
  · obtain ⟨p, w, h, hunused, he⟩ := (hmem _).mp hreported
    obtain ⟨rfl, -⟩ := hdistinct _ _ _ _ h hpath he
    exact hunused .storePath List.prefix_rfl
  · obtain ⟨hparse, hresolve⟩ := hback rfl _ _ hitem
    rw [← htext, hparse]
    exact hresolve

end Json

end AsOf
