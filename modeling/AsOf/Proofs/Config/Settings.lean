import AsOf.Proofs.Config.Merge
import AsOf.Proofs.Config.UnusedReport

namespace AsOf

namespace Json

variable {v w : Json} {p : List String}

theorem isObject_of_isScalar (h : v.isScalar = true) : v.isObject = false := by
  cases v with
  | obj members => cases h
  | _ => rfl

theorem leafAt_of_at? (h : v.at? p = some w) (hw : w.isScalar = true) :
    v.LeafAt (p.map .key) w := by
  induction p generalizing v with
  | nil =>
    cases h
    exact .here hw
  | cons k p ih =>
    obtain ⟨u, hu, hrest⟩ := Option.bind_eq_some_iff.mp h
    cases v with
    | obj members => exact .key (mem_of_lookup hu) (ih hrest)
    | _ => cases hu

theorem pointer_map_key (p : List String) : Step.pointer (p.map .key) = p := by
  rw [Step.pointer, List.map_map]
  exact List.map_id p

end Json

namespace Pointer

variable {p q : Pointer} {v : Json}

def Named (p : Pointer) : Prop := ∀ step ∈ p, index? step = none

theorem resolve?_eq_at? (h : p.Named) (v : Json) : resolve? v p = v.at? p := by
  induction p generalizing v with
  | nil => rfl
  | cons step p ih =>
    obtain ⟨hstep, hp⟩ := List.forall_mem_cons.mp h
    have hrest : (resolve? · p) = (Json.at? · p) := funext fun w => ih hp w
    cases v with
    | obj members => exact congrArg (Option.bind (Json.lookup step members)) hrest
    | arr items =>
      change (index? step).bind _ = none
      rw [hstep]
      rfl
    | _ => rfl

theorem resolve?_append (v : Json) (p q : Pointer) :
    resolve? v (p ++ q) = (resolve? v p).bind (resolve? · q) := by
  induction p generalizing v with
  | nil => rfl
  | cons step p ih =>
    have hrest : (resolve? · (p ++ q)) = fun w => (resolve? w p).bind (resolve? · q) := funext ih
    cases v with
    | obj members =>
      change (Json.lookup step members).bind (resolve? · (p ++ q)) = _
      rw [hrest, ← Option.bind_assoc]
      rfl
    | arr items =>
      change ((index? step).bind fun i => items[i]?.bind (resolve? · (p ++ q))) =
        ((index? step).bind fun i => items[i]?.bind (resolve? · p)).bind (resolve? · q)
      simp only [hrest, Option.bind_assoc]
    | _ => rfl

theorem resolve?_of_isScalar (h : v.isScalar = true) (hp : p ≠ []) : resolve? v p = none := by
  cases p with
  | nil => exact absurd rfl hp
  | cons step p =>
    cases v with
    | obj members => cases h
    | arr items => cases h
    | _ => rfl

end Pointer

namespace Setting

variable {s t : Setting} {v w : Json}

theorem named_pointer (s : Setting) : s.pointer.Named := by
  unfold Pointer.Named
  cases s <;> decide +kernel

theorem read?_eq (s : Setting) (v : Json) : s.read? v = v.at? s.pointer :=
  Pointer.resolve?_eq_at? s.named_pointer v

/-- No place of a setting lies below that of another. -/
theorem eq_of_prefix (h : s.pointer <+: t.pointer) : s = t := by
  have hlength (s : Setting) : s.pointer.length = 2 := by
    cases s <;> rfl
  have he : s.pointer = t.pointer := h.eq_of_length ((hlength s).trans (hlength t).symm)
  revert he
  cases s <;> cases t <;> decide

/-- What a setting has where its place is empty. -/
def default? : Setting → Option Json
  | .maxParams => some (.int defaultMaxParams)
  | .readOnly | .includeSplits | .includeMergers | .includeDividends => some (.bool true)
  | .scope => some (.str Scope.all.name)
  | .storePath | .windowLength => none

end Setting

theorem bind_eq_ok {ε α β : Type} {x : Except ε α} {f : α → Except ε β} {b : β}
    (h : (x >>= f) = .ok b) : ∃ a, x = .ok a ∧ f a = .ok b := by
  cases x with
  | error e => cases h
  | ok a => exact ⟨a, rfl, h⟩

theorem bind_eq_ok_iff {ε α β : Type} {x : Except ε α} {f : α → Except ε β} {b : β} :
    (x >>= f) = .ok b ↔ ∃ a, x = .ok a ∧ f a = .ok b := by
  refine ⟨bind_eq_ok, ?_⟩
  rintro ⟨a, rfl, h⟩
  exact h

theorem ite_error_eq_ok_iff {ε α : Type} {p : Prop} [Decidable p] {e : ε} {a b : α} :
    (if p then .error e else .ok a : Except ε α) = .ok b ↔ ¬p ∧ a = b := by
  by_cases hp : p <;> simp [hp]

namespace Settings

variable {v : Json} {c : Settings} {s : Setting}

/-- What a field of the settings says, as the value that would be written at its place. -/
def value? (c : Settings) : Setting → Option Json
  | .storePath => some (.str c.path)
  | .maxParams => some (.int c.maxParams)
  | .readOnly => some (.bool c.readOnly)
  | .includeSplits => some (.bool c.splits)
  | .includeMergers => some (.bool c.mergers)
  | .includeDividends => some (.bool c.dividends)
  | .scope => some (.str c.scope.name)
  | .windowLength => c.windowLength.map fun n => .int n

/-- The place of a setting holds the scalar that is said of it, or it is empty and the default is
said. -/
def Says (s : Setting) (v : Json) (said : Option Json) : Prop :=
  (∃ w, s.read? v = some w ∧ w.isScalar = true ∧ said = some w) ∨
    s.read? v = none ∧ said = s.default?

theorem says_readPath {path : String} (h : readPath v = .ok path) :
    Says .storePath v (some (.str path)) := by
  unfold readPath at h
  split at h
  · cases h
  · rename_i text hread
    split at h
    · cases h
    · cases h
      exact .inl ⟨_, hread, rfl, rfl⟩
  · cases h

theorem read?_of_readNumber {n : Option Nat} (h : readNumber s v = .ok n) :
    s.read? v = n.map fun n => .int n := by
  unfold readNumber at h
  split at h
  · rename_i hread
    cases h
    exact hread
  · rename_i i hread
    split at h
    · rename_i hrange
      cases h
      rw [hread, Option.map_some, Int.toNat_of_nonneg hrange.1]
    · cases h
  · cases h

theorem says_readFlag {b : Bool} (hs : s.default? = some (.bool true)) (h : readFlag s v = .ok b) :
    Says s v (some (.bool b)) := by
  unfold readFlag at h
  split at h
  · rename_i hread
    cases h
    exact .inr ⟨hread, hs.symm⟩
  · rename_i b hread
    cases h
    exact .inl ⟨_, hread, rfl, rfl⟩
  · cases h

theorem readMaxParams_eq_ok_iff {n : Nat} : readMaxParams v = .ok n ↔
    ∃ m, readNumber .maxParams v = .ok m ∧ ¬m.getD defaultMaxParams < leastMaxParams ∧
      m.getD defaultMaxParams = n :=
  bind_eq_ok_iff.trans (exists_congr fun _ => and_congr_right fun _ => ite_error_eq_ok_iff)

theorem says_readMaxParams {n : Nat} (h : readMaxParams v = .ok n) :
    Says .maxParams v (some (.int n)) := by
  obtain ⟨m, hm, -, rfl⟩ := readMaxParams_eq_ok_iff.mp h
  have hread := read?_of_readNumber hm
  cases m with
  | none => exact .inr ⟨hread, rfl⟩
  | some n => exact .inl ⟨_, hread, rfl, rfl⟩

theorem says_readScope {scope : Scope} (h : readScope v = .ok scope) :
    Says .scope v (some (.str scope.name)) := by
  unfold readScope at h
  split at h
  · rename_i hread
    cases h
    exact .inr ⟨hread, rfl⟩
  · rename_i text hread
    cases hparse : Scope.parse text with
    | error e =>
      rw [hparse] at h
      cases h
    | ok scope' =>
      rw [hparse] at h
      cases h
      exact .inl ⟨_, hread, rfl, congrArg _ (congrArg _ (Scope.name_of_parse hparse))⟩
  · cases h

theorem readLength_eq_ok_iff {n : Option Nat} :
    readLength v = .ok n ↔ ∃ m, readNumber .windowLength v = .ok m ∧ ¬m = some 0 ∧ m = n :=
  bind_eq_ok_iff.trans (exists_congr fun _ => and_congr_right fun _ => ite_error_eq_ok_iff)

theorem says_readLength {n : Option Nat} (h : readLength v = .ok n) :
    Says .windowLength v (n.map fun n => .int n) := by
  obtain ⟨n, hn, -, rfl⟩ := readLength_eq_ok_iff.mp h
  have hread := read?_of_readNumber hn
  cases n with
  | none => exact .inr ⟨hread, rfl⟩
  | some n => exact .inl ⟨_, hread, rfl, rfl⟩

/-- Each place of a configuration is read, with these settings as the outcome. -/
structure Reads (v : Json) (c : Settings) : Prop where
  path : readPath v = .ok c.path
  maxParams : readMaxParams v = .ok c.maxParams
  scope : readScope v = .ok c.scope
  windowLength : readLength v = .ok c.windowLength
  readOnly : readFlag .readOnly v = .ok c.readOnly
  splits : readFlag .includeSplits v = .ok c.splits
  mergers : readFlag .includeMergers v = .ok c.mergers
  dividends : readFlag .includeDividends v = .ok c.dividends

theorem read_eq_ok_iff : read v = .ok c ↔ Reads v c := by
  constructor
  · intro h
    obtain ⟨path, hpath, h⟩ := bind_eq_ok h
    obtain ⟨maxParams, hmax, h⟩ := bind_eq_ok h
    obtain ⟨scope, hscope, h⟩ := bind_eq_ok h
    obtain ⟨length, hlength, h⟩ := bind_eq_ok h
    obtain ⟨readOnly, hreadOnly, h⟩ := bind_eq_ok h
    obtain ⟨splits, hsplits, h⟩ := bind_eq_ok h
    obtain ⟨mergers, hmergers, h⟩ := bind_eq_ok h
    obtain ⟨dividends, hdividends, h⟩ := bind_eq_ok h
    cases h
    exact ⟨hpath, hmax, hscope, hlength, hreadOnly, hsplits, hmergers, hdividends⟩
  · intro h
    rw [read, h.path, h.maxParams, h.scope, h.windowLength, h.readOnly, h.splits, h.mergers,
      h.dividends]
    rfl

theorem says_read (h : read v = .ok c) (s : Setting) : Says s v (c.value? s) := by
  have hreads := read_eq_ok_iff.mp h
  cases s with
  | storePath => exact says_readPath hreads.path
  | maxParams => exact says_readMaxParams hreads.maxParams
  | readOnly => exact says_readFlag rfl hreads.readOnly
  | includeSplits => exact says_readFlag rfl hreads.splits
  | includeMergers => exact says_readFlag rfl hreads.mergers
  | includeDividends => exact says_readFlag rfl hreads.dividends
  | scope => exact says_readScope hreads.scope
  | windowLength => exact says_readLength hreads.windowLength

end Settings

namespace Json

variable {v w : Json} {p : List Step} {c : Settings}

theorem reportUnused_fail_iff :
    (∃ report, v.reportUnused .fail = .ok report) ↔
      ∀ p w, v.LeafAt p w → ∃ s : Setting, s.pointer <+: Step.pointer p := by
  have hempty : v.unusedPlaces = [] ↔
      ∀ p w, v.LeafAt p w → ∃ s : Setting, s.pointer <+: Step.pointer p := by
    rw [List.eq_nil_iff_forall_not_mem]
    simp only [mem_unusedPlaces_iff, not_exists, not_and]
    constructor
    · intro h p w hleaf
      by_contra hno
      exact h _ p w hleaf (not_exists.mp hno) rfl
    · intro h t p w hleaf hno
      obtain ⟨s, hs⟩ := h p w hleaf
      exact absurd hs (hno s)
  rw [← hempty]
  cases hunused : v.unusedPlaces with
  | nil => simp [reportUnused, UnusedReport.isClean, hunused]
  | cons t rest => simp [reportUnused, UnusedReport.isClean, hunused]

/-- If settings are read, a leaf at or below the place of one stands at that place, and is what the
setting says. -/
theorem LeafAt.value?_eq (h : v.LeafAt p w) (hv : v.Sorted) (hread : Settings.read v = .ok c)
    {s : Setting} (hs : s.pointer <+: Step.pointer p) :
    Step.pointer p = s.pointer ∧ c.value? s = some w := by
  obtain ⟨rest, hrest⟩ := hs
  have hw : Pointer.resolve? v (s.pointer ++ rest) = some w := hrest ▸ h.resolve? hv
  rw [Pointer.resolve?_append] at hw
  obtain ⟨u, hu, hw⟩ := Option.bind_eq_some_iff.mp hw
  rcases Settings.says_read hread s with ⟨u', hu', hscalar, hsaid⟩ | ⟨hnone, -⟩
  · -- Nothing lies below a scalar, so the leaf is the scalar itself.
    obtain rfl : u = u' := Option.some.inj (hu.symm.trans hu')
    have hnil : rest = [] := by
      by_contra hne
      rw [Pointer.resolve?_of_isScalar hscalar hne] at hw
      cases hw
    subst hnil
    cases hw
    exact ⟨by rw [← hrest, List.append_nil], hsaid⟩
  · cases hu.symm.trans hnone

theorem value?_eq_default? (hread : Settings.read v = .ok c) {s : Setting}
    (hno : ∀ p w, v.LeafAt p w → Step.pointer p ≠ s.pointer) : c.value? s = s.default? := by
  rcases Settings.says_read hread s with ⟨w, hw, hscalar, -⟩ | ⟨-, hsaid⟩
  · rw [Setting.read?_eq] at hw
    exact absurd (pointer_map_key s.pointer) (hno _ w (leafAt_of_at? hw hscalar))
  · exact hsaid

/-- If the strict policy accepts a configuration and settings are read from it, then it is an object
whose leaves all stand exactly at places of settings, each setting says what its leaf is, and those
without a leaf have their defaults. -/
theorem settings_honour_leaves (hv : v.Sorted) {report : UnusedReport}
    (hreport : v.reportUnused .fail = .ok report) (hread : Settings.read v = .ok c) :
    (∃ members, v = .obj members) ∧
    (∀ p w, v.LeafAt p w → ∃ s : Setting, Step.pointer p = s.pointer ∧
      (∀ t : Setting, t.pointer <+: Step.pointer p → t = s) ∧ c.value? s = some w) ∧
    ∀ s : Setting, (∀ p w, v.LeafAt p w → Step.pointer p ≠ s.pointer) →
      c.value? s = s.default? := by
  refine ⟨?_, ?_, fun s => value?_eq_default? hread⟩
  · rcases Settings.says_read hread .storePath with ⟨w, hw, -, -⟩ | ⟨-, hsaid⟩
    · rw [Setting.read?_eq] at hw
      cases v with
      | obj members => exact ⟨members, rfl⟩
      | _ => cases hw
    · cases hsaid
  · intro p w h
    obtain ⟨s, hs⟩ := reportUnused_fail_iff.mp ⟨report, hreport⟩ p w h
    obtain ⟨hp, hsaid⟩ := h.value?_eq hv hread hs
    exact ⟨s, hp, fun t ht => Setting.eq_of_prefix (hp ▸ ht), hsaid⟩

theorem settings_honour_leaves_blank_path :
    let v : Json := .obj [("adjustments", .obj [("include_splits", .bool false)]),
      ("store", .obj [("max_bound_params", .int 3), ("path", .str " a.db ")]),
      ("window", .obj [])]
    ∃ report c, v.Sorted ∧ v.reportUnused .fail = .ok report ∧ Settings.read v = .ok c ∧
      c.value? .storePath = some (.str " a.db ") ∧ c.value? .includeSplits = some (.bool false) ∧
      c.value? .windowLength = none := by
  intro v
  have hsorted : v.Sorted := by
    simp only [v, Sorted, SortedMembers]
    decide
  have hleaves : v.leaves = [["adjustments", "include_splits"], ["store", "max_bound_params"],
      ["store", "path"]] := rfl
  have hplaces {p : List Step} {w : Json} (h : v.LeafAt p w) :
      Step.pointer p ∈ v.leaves := mem_leaves_iff.mpr ⟨p, w, h, rfl⟩
  obtain ⟨report, hreport⟩ := reportUnused_fail_iff.mpr fun p w (h : v.LeafAt p w) => by
    have hp := hplaces h
    rw [hleaves] at hp
    simp only [List.mem_cons, List.not_mem_nil, or_false] at hp
    rcases hp with hp | hp | hp
    · exact ⟨.includeSplits, hp ▸ List.prefix_rfl⟩
    · exact ⟨.maxParams, hp ▸ List.prefix_rfl⟩
    · exact ⟨.storePath, hp ▸ List.prefix_rfl⟩
  let c : Settings := ⟨" a.db ", 3, true, false, true, true, .all, none⟩
  have hread : Settings.read v = .ok c := rfl
  obtain ⟨-, hsay, hdefault⟩ := settings_honour_leaves hsorted hreport hread
  have hpath : v.LeafAt [.key "store", .key "path"] (.str " a.db ") :=
    leafAt_of_at? (p := ["store", "path"]) rfl rfl
  have hsplits : v.LeafAt [.key "adjustments", .key "include_splits"] (.bool false) :=
    leafAt_of_at? (p := ["adjustments", "include_splits"]) rfl rfl
  obtain ⟨s, -, hs, hsaid⟩ := hsay _ _ hpath
  obtain rfl := hs .storePath List.prefix_rfl
  obtain ⟨t, -, ht, hincluded⟩ := hsay _ _ hsplits
  obtain rfl := ht .includeSplits List.prefix_rfl
  refine ⟨report, c, hsorted, hreport, hread, hsaid, hincluded, hdefault .windowLength ?_⟩
  intro p w h he
  have hp := hplaces h
  rw [hleaves, he] at hp
  revert hp
  decide

end Json

end AsOf
