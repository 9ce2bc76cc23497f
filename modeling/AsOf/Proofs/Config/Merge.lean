import AsOf.Config.Document
import AsOf.Proofs.Json.Sorted
import Mathlib.Data.List.Basic
import Mathlib.Data.List.Induction

namespace AsOf

namespace Json

variable {a b d v w : Json} {k : String} {p rest : List String} {layers : List Json}

def isObject : Json → Bool
  | .obj _ => true
  | _ => false

/-- What is found at the end of a path of keys that leads through objects. -/
def at? (v : Json) : List String → Option Json
  | [] => some v
  | k :: rest => (v.get? k).bind (·.at? rest)

def HasObject (v : Json) (p : List String) : Prop := ∃ w, v.at? p = some w ∧ w.isObject = true

/-- On the way to the end of a path there is something that is no object. -/
def Blocks (v : Json) (p : List String) : Prop :=
  ∃ q w, q <+: p ∧ q ≠ p ∧ v.at? q = some w ∧ w.isObject = false

theorem get?_of_not_isObject (h : v.isObject = false) (k : String) : v.get? k = none := by
  cases v with
  | obj members => cases h
  | _ => rfl

theorem not_blocks_nil (v : Json) : ¬v.Blocks [] := by
  rintro ⟨q, w, hq, hne, -, -⟩
  exact hne (List.prefix_nil.mp hq)

theorem blocks_cons_iff :
    v.Blocks (k :: rest) ↔ v.isObject = false ∨ ∃ w, v.get? k = some w ∧ w.Blocks rest := by
  constructor
  · rintro ⟨q, u, hq, hne, hu, hno⟩
    rcases List.prefix_cons_iff.mp hq with rfl | ⟨q', rfl, hq'⟩
    · cases hu
      exact .inl hno
    · obtain ⟨w, hw, hu⟩ := Option.bind_eq_some_iff.mp hu
      exact .inr ⟨w, hw, q', u, hq', fun he => hne (he ▸ rfl), hu, hno⟩
  · rintro (hno | ⟨w, hw, q, u, hq, hne, hu, hno⟩)
    · exact ⟨[], v, List.nil_prefix, (List.cons_ne_nil k rest).symm, rfl, hno⟩
    · refine ⟨k :: q, u, List.cons_prefix_cons.mpr ⟨rfl, hq⟩, fun he => hne (List.cons.inj he).2,
        ?_, hno⟩
      rw [at?, hw]
      exact hu

theorem isObject_merge (a b : Json) : (merge a b).isObject = b.isObject := by
  cases a <;> cases b <;> rfl

theorem merge_of_not_isObject (a : Json) (h : b.isObject = false) : merge a b = b := by
  cases b with
  | obj members => cases h
  | _ => cases a <;> rfl

theorem null_merge (b : Json) : merge .null b = b := by
  cases b <;> rfl

theorem lookup_mergeMembers {later : List (String × Json)} (h : (later.map Prod.fst).Nodup)
    (earlier : List (String × Json)) (k : String) :
    lookup k (mergeMembers earlier later) =
      match lookup k later with
      | some v => some (merge ((lookup k earlier).getD .null) v)
      | none => lookup k earlier := by
  induction later generalizing earlier with
  | nil => rfl
  | cons m later ih =>
    obtain ⟨j, v⟩ := m
    obtain ⟨hj, hlater⟩ := List.nodup_cons.mp h
    rw [mergeMembers, ih hlater, lookup_insert, lookup]
    by_cases hk : j = k
    · subst hk
      rw [lookup_eq_none_iff.mpr hj, if_pos rfl, if_pos rfl]
    · rw [if_neg hk, if_neg hk]

/-- The step law of merging: a member of a merged object is merged from the members of its layers,
as far as they have it. -/
theorem get?_merge (h : b.Sorted) (a : Json) (k : String) :
    (merge a b).get? k =
      match b.get? k with
      | some v => some (merge ((a.get? k).getD .null) v)
      | none => if b.isObject then a.get? k else none := by
  cases b with
  | obj later =>
    cases a with
    | obj earlier =>
      change lookup k (mergeMembers earlier later) = _
      rw [lookup_mergeMembers h.nodup_keys]
      rfl
    | _ =>
      change lookup k later = match lookup k later with
        | some v => some (merge .null v)
        | none => none
      cases lookup k later with
      | none => rfl
      | some v => exact congrArg some (null_merge v).symm
  | _ => cases a <;> rfl

theorem at?_merge_of_some (h : b.Sorted) (a : Json) (hp : b.at? p = some w) :
    (merge a b).at? p = some (merge ((a.at? p).getD .null) w) := by
  induction p generalizing a b with
  | nil =>
    cases hp
    rfl
  | cons k rest ih =>
    obtain ⟨v, hv, hw⟩ := Option.bind_eq_some_iff.mp hp
    rw [at?, at?, get?_merge h, hv]
    change (merge _ v).at? rest = _
    rw [ih (h.get? hv) _ hw]
    -- Where the earlier layer has no member, it is as if it had a null there.
    cases a.get? k with
    | none => cases rest <;> rfl
    | some u => rfl

theorem at?_merge_of_blocks (h : b.Sorted) (a : Json) (hp : b.Blocks p) :
    (merge a b).at? p = none := by
  induction p generalizing a b with
  | nil => exact absurd hp (not_blocks_nil b)
  | cons k rest ih =>
    rw [at?, get?_merge h]
    rcases blocks_cons_iff.mp hp with hno | ⟨v, hv, hp⟩
    · rw [get?_of_not_isObject hno, hno]
      rfl
    · rw [hv]
      exact ih (h.get? hv) _ hp

theorem at?_merge_of_none (h : b.Sorted) (a : Json) (hp : b.at? p = none) (hno : ¬b.Blocks p) :
    (merge a b).at? p = a.at? p := by
  induction p generalizing a b with
  | nil => cases hp
  | cons k rest ih =>
    rw [blocks_cons_iff, not_or, Bool.not_eq_false] at hno
    obtain ⟨hobject, hno⟩ := hno
    rw [at?, at?, get?_merge h, hobject]
    cases hv : b.get? k with
    | none => rfl
    | some v =>
      have hrest : v.at? rest = none := by
        rwa [at?, hv] at hp
      change (merge _ v).at? rest = _
      rw [ih (h.get? hv) _ hrest fun hblocks => hno ⟨v, hv, hblocks⟩]
      cases a.get? k with
      | none =>
        cases rest with
        | nil => cases hrest
        | cons j rest => rfl
      | some u => rfl

theorem at?_merge_eq_some_iff (h : b.Sorted) (a : Json) (p : List String)
    (hv : v.isObject = false) :
    (merge a b).at? p = some v ↔
      b.at? p = some v ∨ (b.at? p = none ∧ ¬b.Blocks p) ∧ a.at? p = some v := by
  cases hb : b.at? p with
  | some w =>
    rw [at?_merge_of_some h a hb]
    constructor
    · intro he
      cases he
      rw [isObject_merge] at hv
      rw [merge_of_not_isObject _ hv]
      exact .inl rfl
    · rintro (he | ⟨⟨hno, -⟩, -⟩)
      · cases he
        rw [merge_of_not_isObject _ hv]
      · cases hno
  | none =>
    by_cases hblocks : b.Blocks p
    · simp [at?_merge_of_blocks h a hblocks, hblocks]
    · simp [at?_merge_of_none h a hb hblocks, hblocks]

theorem hasObject_merge_iff (h : b.Sorted) (a : Json) (p : List String) :
    (merge a b).HasObject p ↔
      b.HasObject p ∨ ((b.at? p = none ∨ b.HasObject p) ∧ ¬b.Blocks p) ∧ a.HasObject p := by
  cases hb : b.at? p with
  | some w =>
    have hmerged : (merge a b).HasObject p ↔ b.HasObject p := by
      simp [HasObject, at?_merge_of_some h a hb, hb, isObject_merge]
    rw [hmerged]
    simp only [reduceCtorEq, false_or]
    exact ⟨.inl, fun hor => hor.elim id fun hand => hand.1.1⟩
  | none =>
    have hnone : ¬b.HasObject p := by simp [HasObject, hb]
    by_cases hblocks : b.Blocks p
    · simp [HasObject, at?_merge_of_blocks h a hblocks, hblocks, hb]
    · have hmerged : (merge a b).HasObject p ↔ a.HasObject p := by
        rw [HasObject, at?_merge_of_none h a hb hblocks, HasObject]
      simp [hmerged, hnone, hblocks]

end Json

/-- One of some layers sets a place, and every later one keeps what is there. -/
def LastWriter (layers : List Json) (sets keeps : Json → Prop) : Prop :=
  ∃ before d after, layers = before ++ d :: after ∧ sets d ∧ ∀ e ∈ after, keeps e

theorem not_lastWriter_nil {sets keeps : Json → Prop} : ¬LastWriter [] sets keeps := by
  rintro ⟨before, d, after, he, -, -⟩
  exact List.append_ne_nil_of_right_ne_nil before (List.cons_ne_nil d after) he.symm

theorem lastWriter_concat_iff {layers : List Json} {d : Json} {sets keeps : Json → Prop} :
    LastWriter (layers ++ [d]) sets keeps ↔ sets d ∨ keeps d ∧ LastWriter layers sets keeps := by
  constructor
  · rintro ⟨before, e, after, he, hsets, hkeeps⟩
    rcases List.eq_nil_or_concat' after with rfl | ⟨after, f, rfl⟩
    · obtain ⟨-, hlast⟩ := List.append_inj' he rfl
      cases hlast
      exact .inl hsets
    · rw [← List.cons_append, ← List.append_assoc] at he
      obtain ⟨rfl, hlast⟩ := List.append_inj' he rfl
      cases hlast
      exact .inr ⟨hkeeps d (by simp), before, e, after, rfl, hsets,
        fun g hg => hkeeps g (List.mem_append_left _ hg)⟩
  · rintro (hsets | ⟨hd, before, e, after, rfl, hsets, hkeeps⟩)
    · exact ⟨layers, d, [], rfl, hsets, by simp⟩
    · refine ⟨before, e, after ++ [d], by simp, hsets, fun g hg => ?_⟩
      rcases List.mem_append.mp hg with hg | hg
      · exact hkeeps g hg
      · rwa [List.mem_singleton.mp hg]

namespace Json

variable {v : Json} {p : List String} {layers : List Json}

theorem mergeAll_concat (layers : List Json) (d : Json) :
    mergeAll (layers ++ [d]) = merge (mergeAll layers) d := by
  rw [mergeAll, List.foldl_append]
  rfl

section Hereditary

variable {P : Json → Prop}

mutual

theorem Hereditary.merge (h : Hereditary P) : ∀ {a : Json} (b : Json), P a → P b → P (merge a b)
  | a, .obj later, ha, hb => by
    cases a with
    | obj earlier => exact Hereditary.mergeMembers h later ha hb
    | _ => exact hb
  | a, .null, _, hb | a, .bool _, _, hb | a, .int _, _, hb | a, .float _, _, hb | a, .str _, _, hb
  | a, .arr _, _, hb => by
    rw [merge_of_not_isObject a rfl]
    exact hb

theorem Hereditary.mergeMembers (h : Hereditary P) :
    ∀ (later : List (String × Json)) {earlier : List (String × Json)},
      P (.obj earlier) → P (.obj later) → P (.obj (mergeMembers earlier later))
  | [], _, hearlier, _ => hearlier
  | (k, v) :: rest, earlier, hearlier, hlater => by
    obtain ⟨hv, hrest⟩ := h.cons hlater
    have hk : P ((lookup k earlier).getD .null) := by
      cases hl : lookup k earlier with
      | none => exact h.null
      | some w => exact h.member hearlier (mem_of_lookup hl)
    exact Hereditary.mergeMembers h rest (h.insert hearlier (Hereditary.merge h v hk hv)) hrest

end

theorem Hereditary.mergeAll (h : Hereditary P) (hlayers : ∀ d ∈ layers, P d) :
    P (mergeAll layers) := by
  induction layers using List.reverseRecOn with
  | nil => exact h.empty
  | append_singleton layers d ih =>
    rw [mergeAll_concat]
    exact h.merge d (ih fun e he => hlayers e (List.mem_append_left _ he)) (hlayers d (by simp))

theorem Hereditary.of_ofYaml (h : Hereditary P) (hatom : ∀ a, P (Yaml.Node.atomJson a))
    {text : String} (hv : ofYaml text = .ok v) : P v := by
  unfold ofYaml at hv
  split at hv
  · cases hv
  · rename_i node _
    cases hj : node.json? with
    | none =>
      rw [hj] at hv
      cases hv
    | some w =>
      rw [hj] at hv
      cases hv
      exact Yaml.Node.hereditary_json? h hatom node hj

end Hereditary

/-- The run law: a place has the value that the last layer to write it has there. -/
theorem at?_mergeAll_eq_some_iff (h : ∀ d ∈ layers, d.Sorted) (hv : v.isObject = false) :
    (mergeAll layers).at? p = some v ↔
      LastWriter (.obj [] :: layers) (·.at? p = some v) fun e => e.at? p = none ∧ ¬e.Blocks p := by
  induction layers using List.reverseRecOn with
  | nil =>
    rw [← List.nil_append [obj []], lastWriter_concat_iff]
    exact ⟨.inl, fun hor => hor.elim id fun hand => absurd hand.2 not_lastWriter_nil⟩
  | append_singleton layers d ih =>
    rw [mergeAll_concat, at?_merge_eq_some_iff (h d (by simp)) _ p hv,
      ih fun e he => h e (List.mem_append_left _ he), ← List.cons_append, lastWriter_concat_iff]

theorem hasObject_mergeAll_iff (h : ∀ d ∈ layers, d.Sorted) :
    (mergeAll layers).HasObject p ↔
      LastWriter (.obj [] :: layers) (·.HasObject p) fun e =>
        (e.at? p = none ∨ e.HasObject p) ∧ ¬e.Blocks p := by
  induction layers using List.reverseRecOn with
  | nil =>
    rw [← List.nil_append [obj []], lastWriter_concat_iff]
    exact ⟨.inl, fun hor => hor.elim id fun hand => absurd hand.2 not_lastWriter_nil⟩
  | append_singleton layers d ih =>
    rw [mergeAll_concat, hasObject_merge_iff (h d (by simp)),
      ih fun e he => h e (List.mem_append_left _ he), ← List.cons_append, lastWriter_concat_iff]

/-- What a merged configuration has at a place is what the last layer to write that place has there;
a place that no layer writes, or that one takes away after the last layer to write it, has
nothing. -/
theorem last_writer_wins (layers : List Json) (h : ∀ d ∈ layers, d.Sorted) (p : List String) :
    let m := (Configuration.ofLayers layers).value
    let all := .obj [] :: layers
    let Leaves (e : Json) := e.at? p = none ∧ ¬e.Blocks p
    let LeavesObject (e : Json) := (e.at? p = none ∨ e.HasObject p) ∧ ¬e.Blocks p
    (∀ v : Json, v.isObject = false →
      (m.at? p = some v ↔ LastWriter all (·.at? p = some v) Leaves)) ∧
    (m.HasObject p ↔ LastWriter all (·.HasObject p) LeavesObject) ∧
    ((∀ v : Json, v.isObject = false → ¬LastWriter all (·.at? p = some v) Leaves) →
      ¬LastWriter all (·.HasObject p) LeavesObject → m.at? p = none) := by
  intro m all Leaves LeavesObject
  have hvalue (v : Json) (hv : v.isObject = false) :
      m.at? p = some v ↔ LastWriter all (·.at? p = some v) Leaves := at?_mergeAll_eq_some_iff h hv
  have hobject : m.HasObject p ↔ LastWriter all (·.HasObject p) LeavesObject :=
    hasObject_mergeAll_iff h
  refine ⟨hvalue, hobject, fun hno hnone => ?_⟩
  cases hm : m.at? p with
  | none => rfl
  | some w =>
    cases hw : w.isObject with
    | true => exact absurd (hobject.mp ⟨w, hm, hw⟩) hnone
    | false => exact absurd ((hvalue w hw).mp hm) (hno w hw)

/-- A section is overwritten and begun anew: a member that was set again is found, since the layers
after that only add to the section or do not mention it, and one that was not is gone. -/
theorem last_writer_wins_anew :
    let first : Json := .obj [("store", .obj [("path", .str "a.db"), ("read_only", .bool true)])]
    let wiped : Json := .obj [("store", .int 5)]
    let anew : Json := .obj [("store", .obj [("path", .str "b.db")])]
    let more : Json := .obj [("store", .obj []), ("window", .obj [("length", .int 3)])]
    let layers := [first, wiped, anew, more, .obj []]
    let m := (Configuration.ofLayers layers).value
    (∀ d ∈ layers, d.Sorted) ∧ m.at? ["store", "path"] = some (.str "b.db") ∧
      m.HasObject ["store"] ∧ m.at? ["store", "read_only"] = none := by
  intro first wiped anew more layers m
  have hsorted : ∀ d ∈ layers, d.Sorted := by
    simp only [layers, first, wiped, anew, more, List.forall_mem_cons, List.not_mem_nil,
      false_implies, implies_true, Sorted, SortedMembers]
    decide
  have hall : .obj [] :: layers = [.obj [], first] ++ [wiped] ++ [anew] ++ [more] ++ [.obj []] :=
    rfl
  have hpath := (last_writer_wins layers hsorted ["store", "path"]).1 (.str "b.db") rfl
  have hstore := (last_writer_wins layers hsorted ["store"]).2.1
  have hreadOnly := (last_writer_wins layers hsorted ["store", "read_only"]).2.2
  refine ⟨hsorted, hpath.mpr ?_, hstore.mpr ?_, hreadOnly ?_ ?_⟩
  · refine ⟨[.obj [], first, wiped], anew, [more, .obj []], rfl, rfl, ?_⟩
    simp [blocks_cons_iff, isObject, get?, lookup, at?, not_blocks_nil, more]
  · refine ⟨[.obj [], first, wiped, anew], more, [.obj []], rfl, ⟨.obj [], rfl, rfl⟩, ?_⟩
    simp [blocks_cons_iff, isObject, get?, lookup, at?, not_blocks_nil]
  · intro v hv
    simp only [hall, lastWriter_concat_iff]
    simp [at?, get?, lookup, blocks_cons_iff, isObject, wiped, anew, more]
  · simp only [hall, lastWriter_concat_iff]
    simp [HasObject, at?, get?, lookup, blocks_cons_iff, isObject, wiped, anew, more]

end Json

theorem Json.exists_of_mem_layers {docs : List String} {layers : List Json}
    (h : docs.mapM Json.ofYaml = .ok layers) : ∀ d ∈ layers, ∃ text, Json.ofYaml text = .ok d := by
  induction docs generalizing layers with
  | nil =>
    cases h
    simp
  | cons text docs ih =>
    rw [List.mapM_cons] at h
    cases hd : Json.ofYaml text with
    | error e =>
      rw [hd] at h
      cases h
    | ok d =>
      cases hrest : docs.mapM Json.ofYaml with
      | error e =>
        rw [hd, hrest] at h
        cases h
      | ok rest =>
        rw [hd, hrest] at h
        cases h
        exact List.forall_mem_cons.mpr ⟨⟨text, hd⟩, ih hrest⟩

theorem Json.Hereditary.of_ofDocuments {P : Json → Prop} (h : Json.Hereditary P)
    (hatom : ∀ a, P (Yaml.Node.atomJson a)) {docs : List String} {c : Configuration}
    (hc : Configuration.ofDocuments docs = .ok c) :
    ∃ layers, docs.mapM Json.ofYaml = .ok layers ∧ c = .ofLayers layers ∧
      (∀ d ∈ layers, P d) ∧ P c.value := by
  unfold Configuration.ofDocuments at hc
  cases hm : docs.mapM Json.ofYaml with
  | error e =>
    rw [hm] at hc
    cases hc
  | ok layers =>
    rw [hm] at hc
    cases hc
    have hlayers : ∀ d ∈ layers, P d := by
      intro d hd
      obtain ⟨text, ht⟩ := Json.exists_of_mem_layers hm d hd
      exact h.of_ofYaml hatom ht
    exact ⟨layers, rfl, rfl, hlayers, h.mergeAll hlayers⟩

theorem Configuration.layers_of_ofDocuments {docs : List String} {c : Configuration}
    (h : Configuration.ofDocuments docs = .ok c) :
    ∃ layers, docs.mapM Json.ofYaml = .ok layers ∧ c = .ofLayers layers ∧
      (∀ d ∈ layers, d.Sorted) ∧ c.value.Sorted :=
  Json.hereditary_sorted.of_ofDocuments Yaml.Node.sorted_atomJson h

end AsOf
