import AsOf.Proofs.Config.Merge
import AsOf.Proofs.Json.Unambiguous

namespace AsOf

namespace Json

variable {v w : Json} {l : List (String × Json)}

/-- Equality as trees: objects are maps from keys to values, whatever the order of their members,
arrays are compared item by item, strings character by character, and floats by their bits. -/
inductive Same : Json → Json → Prop where
  | null : Same .null .null
  | bool {a b : Bool} (h : a = b) : Same (.bool a) (.bool b)
  | int {n k : Int} (h : n = k) : Same (.int n) (.int k)
  | float {x y : Float} (h : x.toBits = y.toBits) : Same (.float x) (.float y)
  | str {s t : String} (h : s.toList = t.toList) : Same (.str s) (.str t)
  | arr {vs ws : List Json} (hlength : vs.length = ws.length)
      (h : ∀ (i : Nat) v w, vs[i]? = some v → ws[i]? = some w → Same v w) : Same (.arr vs) (.arr ws)
  | obj {ms ns : List (String × Json)}
      (hkeys : ∀ k, (lookup k ms).isSome = (lookup k ns).isSome)
      (h : ∀ k v w, lookup k ms = some v → lookup k ns = some w → Same v w) :
      Same (.obj ms) (.obj ns)

mutual

theorem Same.refl : ∀ v : Json, v.Same v
  | .null => .null
  | .bool _ => .bool rfl
  | .int _ => .int rfl
  | .float _ => .float rfl
  | .str _ => .str rfl
  | .arr items => .arr rfl fun i v w hv hw => by
    cases hv.symm.trans hw
    exact same_items_refl items v (List.mem_of_getElem? hv)
  | .obj members => .obj (fun _ => rfl) fun k v w hv hw => by
    cases hv.symm.trans hw
    exact same_members_refl members (k, v) (mem_of_lookup hv)

theorem same_items_refl : ∀ items : List Json, ∀ v ∈ items, v.Same v
  | [], _, h => absurd h List.not_mem_nil
  | v :: rest, _, h => by
    rcases List.mem_cons.mp h with he | h
    · rw [he]
      exact Same.refl v
    · exact same_items_refl rest _ h

theorem same_members_refl : ∀ members : List (String × Json), ∀ p ∈ members, p.2.Same p.2
  | [], _, h => absurd h List.not_mem_nil
  | (k, v) :: rest, _, h => by
    rcases List.mem_cons.mp h with he | h
    · rw [he]
      exact Same.refl v
    · exact same_members_refl rest _ h

end

theorem Same.eq (h : v.Same w) (hv : v.Sorted) (hw : w.Sorted) : v = w := by
  induction h with
  | null => rfl
  | bool h => rw [h]
  | int h => rw [h]
  | float h => rw [Float.toBits_injective h]
  | str h => rw [String.toList_inj.mp h]
  | arr hlength h ih =>
    congr 1
    refine List.ext_getElem hlength fun i hi hi' => ?_
    exact ih i _ _ (List.getElem?_eq_getElem hi) (List.getElem?_eq_getElem hi')
      (hv.item (List.getElem_mem hi)) (hw.item (List.getElem_mem hi'))
  | @obj ms ns hkeys h ih =>
    have hms := hv
    have hns := hw
    rw [Sorted] at hms hns
    congr 1
    refine eq_of_lookup_eq hms.1 hns.1 fun k => ?_
    have hk := hkeys k
    cases hm : lookup k ms with
    | none =>
      rw [hm] at hk
      exact (Option.isNone_iff_eq_none.mp (Option.isSome_eq_false_iff.mp hk.symm)).symm
    | some u =>
      rw [hm] at hk
      obtain ⟨t, ht⟩ := Option.isSome_iff_exists.mp hk.symm
      rw [ht, ih k u t hm ht (hv.member (mem_of_lookup hm)) (hw.member (mem_of_lookup ht))]

theorem same_iff_eq (hv : v.Sorted) (hw : w.Sorted) : v.Same w ↔ v = w :=
  ⟨fun h => h.eq hv hw, fun h => h ▸ Same.refl v⟩

theorem finiteItems_iff {items : List Json} : FiniteItems items ↔ ∀ v ∈ items, v.Finite := by
  induction items with
  | nil => simp [FiniteItems]
  | cons v rest ih => rw [FiniteItems, ih, List.forall_mem_cons]

theorem finiteMembers_iff : FiniteMembers l ↔ ∀ p ∈ l, p.2.Finite := by
  induction l with
  | nil => simp [FiniteMembers]
  | cons p rest ih =>
    obtain ⟨k, v⟩ := p
    rw [FiniteMembers, ih, List.forall_mem_cons]

theorem hereditary_finite : Hereditary Finite where
  null := trivial
  arr h := by
    rw [Finite]
    exact finiteItems_iff.mpr h
  empty := trivial
  insert hl hv := by
    rw [Finite] at hl ⊢
    refine finiteMembers_iff.mpr fun p hp => ?_
    rcases mem_of_mem_insert hp with rfl | hp
    · exact hv
    · exact finiteMembers_iff.mp hl p hp
  cons {p l} h := by
    rw [Finite] at h ⊢
    exact h

theorem finite_atomJson (a : Yaml.Atom) : (Yaml.Node.atomJson a).Finite := by
  cases a with
  | float x =>
    rw [Yaml.Node.atomJson, ofFloat]
    split
    · rwa [Finite]
    · trivial
  | _ => trivial

end Json

namespace Configuration

variable {docs docs' : List String} {c c' : Configuration}

theorem finite_of_ofDocuments (h : ofDocuments docs = .ok c) : c.value.Finite := by
  obtain ⟨-, -, -, -, hfinite⟩ := Json.hereditary_finite.of_ofDocuments Json.finite_atomJson h
  exact hfinite

/-- The canonical text identifies a configuration: it is the same exactly if the values that the
layers were merged to are the same, as trees. -/
theorem canonical_eq_iff_same (h : ofDocuments docs = .ok c) (h' : ofDocuments docs' = .ok c') :
    c.canonical = c'.canonical ↔ c.value.Same c'.value := by
  obtain ⟨-, -, -, -, hsorted⟩ := layers_of_ofDocuments h
  obtain ⟨-, -, -, -, hsorted'⟩ := layers_of_ofDocuments h'
  rw [Json.same_iff_eq hsorted hsorted']
  exact Json.text_eq_iff (finite_of_ofDocuments h) (finite_of_ofDocuments h')

theorem exists_of_canonical (docs : List String) (text : String)
    (h : (ofDocuments docs).toOption.map canonical = some text) :
    ∃ c, ofDocuments docs = .ok c ∧ c.canonical = text := by
  cases hc : ofDocuments docs with
  | error e =>
    rw [hc] at h
    cases h
  | ok c =>
    rw [hc] at h
    exact ⟨c, rfl, Option.some.inj h⟩

theorem canonical_eq_iff_same_reordered :
    let whole := ["b: 1\na:\n  y: 2\n  x: ['\"', 0.5]\n"]
    let split := ["a:\n  x: []\n  y: 2\n", "a:\n  x: [\"\\\"\", 5e-1]\nb: 1\n"]
    let other := ["b: 1.0\na:\n  y: 2\n  x: ['\"', 0.5]\n"]
    ∃ c c' d, ofDocuments whole = .ok c ∧ ofDocuments split = .ok c' ∧ ofDocuments other = .ok d ∧
      c.canonical = "\x7b\"a\":\x7b\"x\":[\"\\\"\",0.5],\"y\":2\x7d,\"b\":1\x7d" ∧
      c.value.Same c'.value ∧ ¬ c.value.Same d.value := by
  intro whole split other
  obtain ⟨c, hc, htext⟩ := exists_of_canonical whole
    "\x7b\"a\":\x7b\"x\":[\"\\\"\",0.5],\"y\":2\x7d,\"b\":1\x7d" (by decide +kernel)
  obtain ⟨c', hc', htext'⟩ := exists_of_canonical split
    "\x7b\"a\":\x7b\"x\":[\"\\\"\",0.5],\"y\":2\x7d,\"b\":1\x7d" (by decide +kernel)
  obtain ⟨d, hd, htextd⟩ := exists_of_canonical other
    "\x7b\"a\":\x7b\"x\":[\"\\\"\",0.5],\"y\":2\x7d,\"b\":1.0\x7d" (by decide +kernel)
  refine ⟨c, c', d, hc, hc', hd, htext, ?_, fun hsame => ?_⟩
  · exact (canonical_eq_iff_same hc hc').mp (htext.trans htext'.symm)
  · have hne := (canonical_eq_iff_same hc hd).mpr hsame
    rw [htext, htextd] at hne
    exact absurd hne (by decide)

end Configuration

end AsOf
