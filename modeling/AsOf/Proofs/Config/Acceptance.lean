import AsOf.Proofs.Config.Settings
import AsOf.Proofs.Load.Protocol

namespace AsOf

namespace Setting

variable {s : Setting} {w : Option Json} {e e' : SettingsFault} {v : Json}
variable {settings : List Setting} {α β : Type}

/-- The settings in the order in which they are checked. -/
def checked : List Setting :=
  [.storePath, .maxParams, .scope, .windowLength, .readOnly, .includeSplits, .includeMergers,
    .includeDividends]

theorem mem_checked (s : Setting) : s ∈ checked := by
  cases s <;> decide

def isFlag : Setting → Bool
  | .readOnly | .includeSplits | .includeMergers | .includeDividends => true
  | _ => false

/-- What may stand at the place of a setting. -/
def Accepts (s : Setting) (w : Option Json) : Prop :=
  match s with
  | .storePath => ∃ path, w = some (.str path) ∧ ∃ c ∈ path.toList, Text.isBlank c = false
  | .maxParams => w = none ∨ ∃ n : Nat, w = some (.int n) ∧ 3 ≤ n ∧ n < unsignedBound 64
  | .scope => w = none ∨ ∃ scope : Scope, w = some (.str scope.name)
  | .windowLength => w = none ∨ ∃ n : Nat, w = some (.int n) ∧ 1 ≤ n ∧ n < unsignedBound 64
  | .readOnly | .includeSplits | .includeMergers | .includeDividends =>
    w = none ∨ ∃ b, w = some (.bool b)

/-- What is said of what may not stand there. -/
inductive Refuses : Setting → Option Json → SettingsFault → Prop
  | missing : Refuses .storePath none .missingPath
  | noText {s : Setting} {u : Json} (hs : s = .storePath ∨ s = .scope)
      (h : ∀ text, u ≠ .str text) : Refuses s (some u) (.notString s)
  | blank {path : String} (h : ∀ c ∈ path.toList, Text.isBlank c = true) :
      Refuses .storePath (some (.str path)) .blankPath
  | noNumber {s : Setting} {u : Json} (hs : s = .maxParams ∨ s = .windowLength)
      (h : ∀ n : Nat, u = .int n → unsignedBound 64 ≤ n) : Refuses s (some u) (.notNumber s)
  | few {n : Nat} (h : n < 3) : Refuses .maxParams (some (.int n)) (.fewParams n)
  | zero {n : Nat} (h : n < 1) : Refuses .windowLength (some (.int n)) .zeroLength
  | unknown {text : String} (h : ∀ scope : Scope, scope.name ≠ text) :
      Refuses .scope (some (.str text)) (.badScope ⟨text⟩)
  | noFlag {s : Setting} {u : Json} (hs : s.isFlag = true) (h : ∀ b, u ≠ .bool b) :
      Refuses s (some u) (.notBool s)

/-- Of the settings in a list, the first whose place has something that may not stand there, and
what is said of it. -/
inductive FirstRefused (v : Json) : List Setting → SettingsFault → Prop
  | here {s : Setting} {rest : List Setting} {e : SettingsFault}
      (h : s.Refuses (v.at? s.pointer) e) : FirstRefused v (s :: rest) e
  | later {s : Setting} {rest : List Setting} {e : SettingsFault}
      (hs : s.Accepts (v.at? s.pointer)) (h : FirstRefused v rest e) : FirstRefused v (s :: rest) e

theorem Accepts.kind {u : Json} (h : s.Accepts (some u)) :
    (∃ text, u = .str text) ∨ (∃ n, u = .int n) ∨ ∃ b, u = .bool b := by
  cases s <;> grind [Accepts]

theorem accepts_flag (hs : s.isFlag = true) : s.Accepts w ↔ w = none ∨ ∃ b, w = some (.bool b) := by
  cases s <;> first | rfl | cases hs

theorem Refuses.not_accepts (h : s.Refuses w e) : ¬s.Accepts w := by
  intro hs
  cases h with
  | missing =>
    obtain ⟨path, hpath, -⟩ := hs
    cases hpath
  | noText hplace h =>
    rcases hplace with rfl | rfl
    · obtain ⟨path, hpath, -⟩ := hs
      cases hpath
      exact h path rfl
    · obtain hnone | ⟨scope, hscope⟩ := hs
      · cases hnone
      · cases hscope
        exact h scope.name rfl
  | blank h =>
    obtain ⟨path, hpath, c, hc, hblank⟩ := hs
    cases hpath
    rw [h c hc] at hblank
    cases hblank
  | noNumber hplace h =>
    rcases hplace with rfl | rfl <;> rcases hs with hnone | ⟨n, hn, -, hmax⟩
    · cases hnone
    · cases hn
      exact Nat.not_lt.mpr (h n rfl) hmax
    · cases hnone
    · cases hn
      exact Nat.not_lt.mpr (h n rfl) hmax
  | few h =>
    obtain hnone | ⟨n, hn, hmin, hmax⟩ := hs
    · cases hnone
    · cases hn
      omega
  | zero h =>
    obtain hnone | ⟨n, hn, hmin, hmax⟩ := hs
    · cases hnone
    · cases hn
      omega
  | unknown h =>
    obtain hnone | ⟨scope, hscope⟩ := hs
    · cases hnone
    · cases hscope
      exact h scope rfl
  | noFlag hflag h =>
    obtain hnone | ⟨b, hb⟩ := (accepts_flag hflag).mp hs
    · cases hnone
    · cases hb
      exact h b rfl

theorem Refuses.unique (h : s.Refuses w e) (h' : s.Refuses w e') : e = e' := by
  have hbound : 3 ≤ unsignedBound 64 := by decide
  -- Of two faults of a setting one says what the value must be and the other what it is instead.
  cases h <;> cases h' <;> grind [isFlag]

/-- Every fault names the place that it is found at. -/
theorem Refuses.message (h : s.Refuses w e) :
    ∃ before after, e.message = before ++ s.pointer.text ++ after := by
  cases h with
  | missing => exact ⟨"CONFIG_MISSING: ", " is required", rfl⟩
  | noText => exact ⟨"CONFIG_TYPE: ", " must be a string", rfl⟩
  | blank => exact ⟨"CONFIG_INVALID: ", " must not be empty", rfl⟩
  | noNumber => exact ⟨"CONFIG_TYPE: ", " must be a non-negative integer", rfl⟩
  | few =>
    have hassoc (a t b c d f g : String) :
        a ++ t ++ b ++ c ++ d ++ f ++ g = a ++ t ++ (b ++ c ++ d ++ f ++ g) := by
      simp only [String.append_assoc]
    exact ⟨_, _, hassoc _ _ _ _ _ _ _⟩
  | zero => exact ⟨"CONFIG_INVALID: ", " must be at least 1", rfl⟩
  | unknown => exact ⟨"CONFIG_INVALID: ", "", String.append_empty.symm⟩
  | noFlag => exact ⟨"CONFIG_TYPE: ", " must be a bool", rfl⟩

theorem FirstRefused.refuses (h : FirstRefused v settings e) :
    ∃ s ∈ settings, s.Refuses (v.at? s.pointer) e := by
  induction h with
  | here h => exact ⟨_, List.mem_cons_self, h⟩
  | later _ _ ih =>
    obtain ⟨s, hmem, hs⟩ := ih
    exact ⟨s, List.mem_cons_of_mem _ hmem, hs⟩

theorem FirstRefused.not_accepts (h : FirstRefused v settings e) :
    ¬∀ s ∈ settings, s.Accepts (v.at? s.pointer) := by
  intro hall
  obtain ⟨s, hmem, hs⟩ := h.refuses
  exact hs.not_accepts (hall s hmem)

theorem FirstRefused.unique (h : FirstRefused v settings e) (h' : FirstRefused v settings e') :
    e = e' := by
  induction h with
  | here h =>
    cases h' with
    | here h' => exact h.unique h'
    | later hs => exact absurd hs h.not_accepts
  | later hs _ ih =>
    cases h' with
    | here h' => exact absurd hs h'.not_accepts
    | later _ h' => exact ih h'

/-- A check of a setting succeeds on what the setting accepts, and says of the rest what is to be
said. -/
def Checks (s : Setting) (w : Option Json) : Except SettingsFault α → Prop
  | .ok _ => s.Accepts w
  | .error e => s.Refuses w e

/-- Checks of several settings succeed if all do, and fail as the first that fails. -/
def Visits (v : Json) (settings : List Setting) : Except SettingsFault α → Prop
  | .ok _ => ∀ s ∈ settings, s.Accepts (v.at? s.pointer)
  | .error e => FirstRefused v settings e

theorem visits_nil (a : α) : Visits v [] (.ok a) := by
  intro s hs
  cases hs

/-- The step law: one more check, before the others. -/
theorem visits_bind {x : Except SettingsFault α} {f : α → Except SettingsFault β}
    (hx : s.Checks (v.at? s.pointer) x) (hf : ∀ a, Visits v settings (f a)) :
    Visits v (s :: settings) (x >>= f) := by
  cases x with
  | error e => exact .here hx
  | ok a =>
    have hrest := hf a
    change Visits v (s :: settings) (f a)
    cases hfa : f a with
    | error e =>
      rw [hfa] at hrest
      exact .later hx hrest
    | ok b =>
      rw [hfa] at hrest
      exact List.forall_mem_cons.mpr ⟨hx, hrest⟩

theorem Visits.ok_iff {x : Except SettingsFault α} (h : Visits v settings x) :
    (∃ a, x = .ok a) ↔ ∀ s ∈ settings, s.Accepts (v.at? s.pointer) := by
  cases x with
  | ok a => exact iff_of_true ⟨a, rfl⟩ h
  | error e =>
    apply iff_of_false _ (FirstRefused.not_accepts h)
    rintro ⟨a, ha⟩
    cases ha

theorem Visits.error_iff {x : Except SettingsFault α} (h : Visits v settings x) :
    x = .error e ↔ FirstRefused v settings e := by
  cases x with
  | error e' =>
    constructor
    · intro he
      cases he
      exact h
    · intro h'
      rw [FirstRefused.unique h h']
  | ok a =>
    constructor
    · intro he
      cases he
    · intro h'
      exact absurd h h'.not_accepts

end Setting

namespace Settings

variable {s : Setting}

theorem checks_readPath (v : Json) :
    Setting.storePath.Checks (v.at? Setting.storePath.pointer) (readPath v) := by
  rw [readPath, Setting.read?_eq]
  cases v.at? Setting.storePath.pointer with
  | none => exact .missing
  | some w =>
    cases w with
    | str path =>
      change Setting.storePath.Checks _ (if Text.isBlankText path then _ else _)
      split
      · rename_i hblank
        exact .blank (List.all_eq_true.mp hblank)
      · rename_i hblank
        obtain ⟨c, hc, hno⟩ := List.all_eq_false.mp (eq_false_of_ne_true hblank)
        exact ⟨path, rfl, c, hc, eq_false_of_ne_true hno⟩
    | _ => exact .noText (.inl rfl) (by simp)

theorem readNumber_cases (s : Setting) (v : Json) :
    (v.at? s.pointer = none ∧ readNumber s v = .ok none) ∨
    (∃ n : Nat, v.at? s.pointer = some (.int n) ∧ n < unsignedBound 64 ∧
      readNumber s v = .ok (some n)) ∨
    ∃ w, v.at? s.pointer = some w ∧ (∀ n : Nat, w = .int n → unsignedBound 64 ≤ n) ∧
      readNumber s v = .error (.notNumber s) := by
  rw [readNumber, Setting.read?_eq]
  cases v.at? s.pointer with
  | none => exact .inl ⟨rfl, rfl⟩
  | some w =>
    apply Or.inr
    cases w with
    | int i =>
      by_cases hi : 0 ≤ i ∧ i < unsignedBound 64
      · obtain ⟨n, rfl⟩ := Int.eq_ofNat_of_zero_le hi.1
        exact .inl ⟨n, rfl, by exact_mod_cast hi.2, if_pos hi⟩
      · refine .inr ⟨_, rfl, ?_, if_neg hi⟩
        intro n hn
        cases hn
        omega
    | _ => exact .inr ⟨_, rfl, by simp, rfl⟩

theorem checks_readMaxParams (v : Json) :
    Setting.maxParams.Checks (v.at? Setting.maxParams.pointer) (readMaxParams v) := by
  obtain ⟨hplace, hread⟩ | ⟨n, hplace, hn, hread⟩ | ⟨w, hplace, hno, hread⟩ :=
    readNumber_cases .maxParams v <;> rw [hplace, readMaxParams, hread]
  · exact .inl rfl
  · change Setting.maxParams.Checks _ (if n < leastMaxParams then _ else _)
    split
    · rename_i hfew
      exact .few hfew
    · rename_i hmany
      exact .inr ⟨n, rfl, Nat.not_lt.mp hmany, hn⟩
  · exact .noNumber (.inl rfl) hno

theorem checks_readLength (v : Json) :
    Setting.windowLength.Checks (v.at? Setting.windowLength.pointer) (readLength v) := by
  obtain ⟨hplace, hread⟩ | ⟨n, hplace, hn, hread⟩ | ⟨w, hplace, hno, hread⟩ :=
    readNumber_cases .windowLength v <;> rw [hplace, readLength, hread]
  · exact .inl rfl
  · cases n with
    | zero => exact .zero Nat.zero_lt_one
    | succ n => exact .inr ⟨n + 1, rfl, Nat.le_add_left 1 n, hn⟩
  · exact .noNumber (.inr rfl) hno

theorem checks_readScope (v : Json) :
    Setting.scope.Checks (v.at? Setting.scope.pointer) (readScope v) := by
  rw [readScope, Setting.read?_eq]
  cases v.at? Setting.scope.pointer with
  | none => exact .inl rfl
  | some w =>
    cases w with
    | str text =>
      by_cases hname : ∃ scope : Scope, scope.name = text
      · obtain ⟨scope, rfl⟩ := hname
        change Setting.scope.Checks _ ((Scope.parse scope.name).mapError _)
        rw [Scope.parse_name]
        exact .inr ⟨scope, rfl⟩
      · have hno := not_exists.mp hname
        change Setting.scope.Checks _ ((Scope.parse text).mapError _)
        rw [Scope.parse_unknown hno]
        exact .unknown hno
    | _ => exact .noText (.inr rfl) (by simp)

theorem checks_readFlag (hs : s.isFlag = true) (v : Json) :
    s.Checks (v.at? s.pointer) (readFlag s v) := by
  rw [readFlag, Setting.read?_eq]
  cases v.at? s.pointer with
  | none => exact (Setting.accepts_flag hs).mpr (.inl rfl)
  | some w =>
    cases w with
    | bool b => exact (Setting.accepts_flag hs).mpr (.inr ⟨b, rfl⟩)
    | _ => exact .noFlag hs (by simp)

/-- The run law: reading visits the settings in their order. -/
theorem visits_read (v : Json) : Setting.Visits v Setting.checked (read v) := by
  apply Setting.visits_bind (checks_readPath v)
  intro path
  apply Setting.visits_bind (checks_readMaxParams v)
  intro maxParams
  apply Setting.visits_bind (checks_readScope v)
  intro scope
  apply Setting.visits_bind (checks_readLength v)
  intro length
  apply Setting.visits_bind (checks_readFlag rfl v)
  intro readOnly
  apply Setting.visits_bind (checks_readFlag rfl v)
  intro splits
  apply Setting.visits_bind (checks_readFlag rfl v)
  intro mergers
  apply Setting.visits_bind (checks_readFlag rfl v)
  intro dividends
  exact Setting.visits_nil _

theorem value?_of_read {v : Json} {c : Settings} (h : read v = .ok c) (s : Setting) :
    c.value? s = (v.at? s.pointer).or s.default? := by
  rw [← Setting.read?_eq]
  rcases says_read h s with ⟨w, hw, -, hsaid⟩ | ⟨hnone, hsaid⟩
  · rw [hw, hsaid]
    rfl
  · rw [hnone, hsaid]
    rfl

/-- Whatever is wrong with a configuration, the message names the place. -/
theorem message_of_read {v : Json} {e : SettingsFault} (h : read v = .error e) :
    ∃ (s : Setting) (before after : String), e.message = before ++ s.pointer.text ++ after := by
  obtain ⟨s, -, hs⟩ := ((visits_read v).error_iff.mp h).refuses
  exact ⟨s, hs.message⟩

theorem read_ok_iff (v : Json) :
    (∃ c, read v = .ok c) ↔ ∀ s : Setting, s.Accepts (v.at? s.pointer) := by
  rw [(visits_read v).ok_iff]
  constructor
  · intro h s
    exact h s s.mem_checked
  · intro h s _
    exact h s

/-- Settings are read exactly if every place has what its setting accepts, which is a text, a whole
number or a truth value. They then say what stands at the places, and their defaults of the others;
the fault is otherwise that of the first place in the order of the checks that has something else.
-/
theorem read_exact (v : Json) :
    ((∃ c, read v = .ok c) ↔ ∀ s : Setting, s.Accepts (v.at? s.pointer)) ∧
    (∀ c, read v = .ok c → ∀ s : Setting, c.value? s = (v.at? s.pointer).or s.default? ∧
      ∀ w, v.at? s.pointer = some w →
        (∃ text, w = .str text) ∨ (∃ n, w = .int n) ∨ ∃ b, w = .bool b) ∧
    ∀ e, read v = .error e ↔ Setting.FirstRefused v Setting.checked e := by
  refine ⟨read_ok_iff v, ?_, fun e => (visits_read v).error_iff⟩
  intro c hc s
  refine ⟨value?_of_read hc s, ?_⟩
  intro w hw
  have haccepts := (read_ok_iff v).mp ⟨c, hc⟩ s
  rw [hw] at haccepts
  exact haccepts.kind

theorem read_exact_blanks :
    let v : Json := .obj [("store", .obj [("path", .str " a.db ")])]
    let u : Json := .obj [("adjustments", .obj [("include_splits", .null), ("scope", .str "ALL")]),
      ("store", .obj [("max_bound_params", .int 2), ("path", .str " ")])]
    (∃ c, read v = .ok c ∧ c.value? .storePath = some (.str " a.db ") ∧
      c.value? .maxParams = some (.int 999) ∧ c.value? .windowLength = none) ∧
    read u = .error .blankPath := by
  intro v u
  obtain ⟨hok, hsay, -⟩ := read_exact v
  obtain ⟨-, -, herror⟩ := read_exact u
  obtain ⟨c, hc⟩ := hok.mpr fun s => by
    cases s with
    | storePath => exact ⟨" a.db ", rfl, 'a', by decide, by decide⟩
    | _ => exact .inl rfl
  refine ⟨⟨c, hc, (hsay c hc _).1, (hsay c hc _).1, (hsay c hc _).1⟩, (herror _).mpr (.here ?_)⟩
  exact .blank (List.all_eq_true.mp rfl)

end Settings

end AsOf
