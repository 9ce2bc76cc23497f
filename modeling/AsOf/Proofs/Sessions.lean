import AsOf.Proofs.Axes
import AsOf.Proofs.Calendar
import Mathlib.Data.List.Forall2

namespace AsOf

def wholeSecond (instant : Int) : Int := instant.fdiv 1000000000

/-- Clocks are set apart from UTC by less than a day. -/
def IsOffset (offset : Int) : Prop := -86400 < offset ∧ offset < 86400

instance (offset : Int) : Decidable (IsOffset offset) := inferInstanceAs (Decidable (_ ∧ _))

namespace LocalTime

def date (t : LocalTime) : CalendarDay := ⟨t.year, t.month, t.day⟩

structure Valid (t : LocalTime) : Prop where
  date : t.date.Valid
  hour : t.hour < 24
  minute : t.minute < 60
  second : t.second < 60
  nanosecond : t.nanosecond < 1000000000
  offset : IsOffset t.offset

instance (t : LocalTime) : Decidable t.Valid :=
  decidable_of_iff
    ((t.date.Valid ∧ IsOffset t.offset) ∧
      t.hour < 24 ∧ t.minute < 60 ∧ t.second < 60 ∧ t.nanosecond < 1000000000)
    ⟨fun h => ⟨h.1.1, h.2.1, h.2.2.1, h.2.2.2.1, h.2.2.2.2, h.1.2⟩,
      fun h => ⟨⟨h.1, h.6⟩, h.2, h.3, h.4, h.5⟩⟩

/-- The local clock shows the time so many nanoseconds after it began the first of January 1970. -/
def Reads (t : LocalTime) (reading : Int) : Prop :=
  ∃ n, CalendarDay.Numbered t.date n ∧ reading =
    (((n * 24 + t.hour) * 60 + t.minute) * 60 + t.second) * 1000000000 + t.nanosecond

/-- The local clock shows the time at this instant, counted in nanoseconds from the epoch; an offset
sets the clock ahead. -/
def Denotes (t : LocalTime) (instant : Int) : Prop := t.Reads (instant + t.offset * 1000000000)

def SecondLater (t u : LocalTime) : Prop :=
  ∃ c e, t.Reads c ∧ u.Reads e ∧ c + 1000000000 ≤ e

variable {t u : LocalTime} {n : Int}

theorem clockSecond_eq (t : LocalTime) :
    t.clockSecond = ((t.date.number * 24 + t.hour) * 60 + t.minute) * 60 + t.second := by
  simp only [clockSecond, CalendarDay.number, date, AsOf.day]
  omega

theorem reads_iff (h : t.date.Valid) :
    t.Reads n ↔ n = t.clockSecond * 1000000000 + t.nanosecond := by
  rw [clockSecond_eq]
  constructor
  · rintro ⟨k, hk, rfl⟩
    rw [h.numbered_iff.mp hk]
  · rintro rfl
    exact ⟨_, h.numbered, rfl⟩

theorem denotes_iff (h : t.date.Valid) : t.Denotes n ↔ n = t.nanoseconds := by
  rw [Denotes, reads_iff h, nanoseconds, epochSecond]
  omega

theorem epochSecond_eq_wholeSecond (h : t.nanosecond < 1000000000) :
    t.epochSecond = wholeSecond t.nanoseconds := by
  rw [wholeSecond, Int.fdiv_eq_ediv_of_nonneg _ (by decide)]
  exact t.epochSecond_eq_floor h

theorem exists_denotes (instant : Int) {offset : Int} (ho : IsOffset offset) :
    ∃ t : LocalTime, t.Valid ∧ t.offset = offset ∧ t.Denotes instant := by
  obtain ⟨c, hc⟩ : ∃ c, c = instant + offset * 1000000000 := ⟨_, rfl⟩
  obtain ⟨d, hd⟩ := CalendarDay.exists_numbered (c / 1000000000 / 86400)
  let s := c / 1000000000 % 86400
  refine ⟨⟨d.year, d.month, d.day, (s / 3600).toNat, (s / 60 % 60).toNat, (s % 60).toNat,
    (c % 1000000000).toNat, offset⟩, ⟨hd.valid, ?_, ?_, ?_, ?_, ho⟩, rfl, _, hd, ?_⟩
  all_goals simp only [s]; omega

theorem forall₂_denotes_iff {sessions : List LocalTime} {instants : List Int}
    (h : ∀ t ∈ sessions, t.Valid) :
    List.Forall₂ Denotes sessions instants ↔ instants = sessions.map nanoseconds := by
  induction sessions generalizing instants with
  | nil => simp
  | cons t rest ih =>
    obtain ⟨ht, hrest⟩ := List.forall_mem_cons.mp h
    rw [List.forall₂_cons_left_iff, List.map_cons]
    constructor
    · rintro ⟨n, l, hn, hl, rfl⟩
      rw [(denotes_iff ht.date).mp hn, (ih hrest).mp hl]
    · rintro rfl
      exact ⟨_, _, (denotes_iff ht.date).mpr rfl, (ih hrest).mpr rfl, rfl⟩

theorem SecondLater.epochSecond_lt (h : t.SecondLater u) (ht : t.Valid) (hu : u.Valid)
    (ho : t.offset = u.offset) : t.epochSecond < u.epochSecond := by
  obtain ⟨c, e, hc, he, hle⟩ := h
  have hc := (reads_iff ht.date).mp hc
  have he := (reads_iff hu.date).mp he
  have hnano := hu.nanosecond
  unfold epochSecond
  omega

end LocalTime

/-- The instant at an index falls in the same second as the one before it, or comes before it. -/
def StaysAt (instants : List Int) (i : Nat) : Prop :=
  0 < i ∧ ∃ a b, instants[i - 1]? = some a ∧ instants[i]? = some b ∧
    (wholeSecond b = wholeSecond a ∨ b < a)

theorem wholeSecond_le_iff {a b : Int} :
    wholeSecond b ≤ wholeSecond a ↔ wholeSecond b = wholeSecond a ∨ b < a := by
  simp only [wholeSecond, Int.fdiv_eq_ediv_of_nonneg _ (by decide : (0 : Int) ≤ 1000000000)]
  omega

theorem fallsAt_map_wholeSecond {instants : List Int} {i : Nat} :
    FallsAt (instants.map wholeSecond) i ↔ StaysAt instants i := by
  refine and_congr_right fun hpos => ?_
  simp only [List.length_map, List.getElem_map, wholeSecond_le_iff]
  constructor
  · rintro ⟨hi, hstays⟩
    have hbefore : i - 1 < instants.length := Nat.lt_of_le_of_lt (Nat.sub_le i 1) hi
    exact ⟨_, _, List.getElem?_eq_getElem hbefore, List.getElem?_eq_getElem hi, hstays⟩
  · rintro ⟨a, b, ha, hb, hstays⟩
    obtain ⟨hbefore, rfl⟩ := List.getElem?_eq_some_iff.mp ha
    obtain ⟨hi, rfl⟩ := List.getElem?_eq_some_iff.mp hb
    exact ⟨hi, hstays⟩

namespace Axes

variable {sessions : List LocalTime} {instants assets : List Int}

theorem ofLocalTimes_eq_make (h : ∀ t ∈ sessions, t.Valid)
    (hi : List.Forall₂ LocalTime.Denotes sessions instants) :
    ofLocalTimes sessions assets = make (instants.map wholeSecond) assets := by
  obtain rfl := (LocalTime.forall₂_denotes_iff h).mp hi
  rw [ofLocalTimes, List.map_map]
  congr 1
  exact List.map_congr_left fun t ht => LocalTime.epochSecond_eq_wholeSecond (h t ht).nanosecond

theorem exists_ofLocalTimes {offset : Int} (h : ∀ t ∈ sessions, t.Valid) (hne : sessions ≠ [])
    (ho : ∀ t ∈ sessions, t.offset = offset) (hlater : sessions.IsChain LocalTime.SecondLater)
    (honce : assets.Nodup) : ∃ x, ofLocalTimes sessions assets = .ok x := by
  refine exists_make_iff.mpr ⟨by simpa using hne, ?_, honce⟩
  rw [← firstFall_eq_none_iff, firstFall_eq_none_iff_forall]
  rintro i ⟨hpos, hi, hle⟩
  rw [List.length_map] at hi
  simp only [List.getElem_map] at hle
  have hstep := hlater.getElem (i - 1) (by omega)
  simp only [Nat.sub_add_cancel hpos] at hstep
  have hlt := hstep.epochSecond_lt (h _ (List.getElem_mem _)) (h _ (List.getElem_mem hi))
    ((ho _ (List.getElem_mem _)).trans (ho _ (List.getElem_mem hi)).symm)
  omega

/-- Axes of local times are those of the instants that the times denote, rounded down to whole
seconds, so that sessions may as well be given at other offsets. The first session that is not in a
later second than the one before it is reported, whatever the clocks showed; if the sessions are all
by one clock that has moved on by a second each time, there is none. -/
theorem ofLocalTimes_exact (sessions : List LocalTime) (assets : List Int)
    (h : ∀ t ∈ sessions, t.Valid) :
    ∃ instants : List Int,
      (∀ l, List.Forall₂ LocalTime.Denotes sessions l ↔ l = instants) ∧
      ofLocalTimes sessions assets = make (instants.map wholeSecond) assets ∧
      (∀ others : List LocalTime, (∀ t ∈ others, t.Valid) →
        List.Forall₂ LocalTime.Denotes others instants →
        ofLocalTimes others assets = ofLocalTimes sessions assets) ∧
      (∀ instant ∈ instants, ∀ offset, IsOffset offset →
        ∃ t : LocalTime, t.Valid ∧ t.offset = offset ∧ t.Denotes instant) ∧
      (∀ i, ofLocalTimes sessions assets = .error (.notIncreasing i) ↔
        IsLeast {j | StaysAt instants j} i) ∧
      ∀ offset, sessions ≠ [] → (∀ t ∈ sessions, t.offset = offset) →
        sessions.IsChain LocalTime.SecondLater → assets.Nodup →
        ∃ x, ofLocalTimes sessions assets = .ok x := by
  have hinstants (l : List Int) : List.Forall₂ LocalTime.Denotes sessions l ↔
      l = sessions.map LocalTime.nanoseconds := LocalTime.forall₂_denotes_iff h
  have hmake : ofLocalTimes sessions assets = make _ assets :=
    ofLocalTimes_eq_make h ((hinstants _).mpr rfl)
  refine ⟨_, hinstants, hmake, ?_, ?_, ?_, ?_⟩
  · intro others hothers hdenote
    rw [ofLocalTimes_eq_make hothers hdenote, hmake]
  · intro instant _ offset ho
    exact LocalTime.exists_denotes instant ho
  · intro i
    rw [hmake, make_notIncreasing_iff]
    simp only [fallsAt_map_wholeSecond]
  · intro offset hne ho hlater honce
    exact exists_ofLocalTimes h hne ho hlater honce

/-- A clock five hours ahead shows a later time, but it does so a quarter of a second earlier, both
in the last second before 1970. A clock that is read at nine on the evenings around a leap day moves
on; read in Greenwich at the same instants, the sessions are of the days after. -/
theorem ofLocalTimes_exact_clocks :
    let home : LocalTime := ⟨1969, 12, 31, 23, 59, 59, 500000000, 0⟩
    let ahead : LocalTime := ⟨1970, 1, 1, 4, 59, 59, 250000000, 18000⟩
    let evening (month day : Nat) : LocalTime := ⟨2024, month, day, 21, 0, 0, 0, -18000⟩
    let night (month day : Nat) : LocalTime := ⟨2024, month, day, 2, 0, 0, 0, 0⟩
    let evenings := [evening 2 28, evening 2 29, evening 3 1]
    let nights := [night 2 29, night 3 1, night 3 2]
    (∀ t ∈ [home, ahead], t.Valid) ∧
      ofLocalTimes [home, ahead] [7] = .error (.notIncreasing 1) ∧
      (∀ t ∈ evenings, t.Valid) ∧ (∃ x, ofLocalTimes evenings [7] = .ok x) ∧
      ofLocalTimes nights [7] = ofLocalTimes evenings [7] := by
  intro home ahead evening night evenings nights
  have hclocks : ∀ t ∈ [home, ahead], t.Valid := by decide
  have hevenings : ∀ t ∈ evenings, t.Valid := by decide
  have hnights : ∀ t ∈ nights, t.Valid := by decide
  obtain ⟨read, hread, -, -, -, hstays, -⟩ := ofLocalTimes_exact [home, ahead] [7] hclocks
  obtain ⟨instants, hinstants, -, hothers, -, -, haccepted⟩ :=
    ofLocalTimes_exact evenings [7] hevenings
  refine ⟨hclocks, (hstays 1).mpr ?_, hevenings,
    haccepted (-18000) (by decide) (by decide) ?_ (by decide), hothers nights hnights ?_⟩
  · obtain rfl : [-500000000, -750000000] = read :=
      (hread _).mp ((LocalTime.forall₂_denotes_iff hclocks).mpr (by decide))
    exact ⟨⟨Nat.one_pos, _, _, rfl, rfl, .inl rfl⟩, fun j hj => hj.1⟩
  · have hlater {m d n e : Nat} (hfrom : (evening m d).date.Valid) (hto : (evening n e).date.Valid)
        (hle : (evening m d).clockSecond + 1 ≤ (evening n e).clockSecond) :
        (evening m d).SecondLater (evening n e) := by
      refine ⟨_, _, (LocalTime.reads_iff hfrom).mpr rfl, (LocalTime.reads_iff hto).mpr rfl, ?_⟩
      simp only [evening] at hle ⊢
      omega
    exact .cons_cons (hlater (by decide) (by decide) (by decide))
      (.cons_cons (hlater (by decide) (by decide) (by decide)) (.singleton _))
  · obtain rfl : evenings.map LocalTime.nanoseconds = instants :=
      (hinstants _).mp ((LocalTime.forall₂_denotes_iff hevenings).mpr rfl)
    exact (LocalTime.forall₂_denotes_iff hnights).mpr (by decide)

end Axes

end AsOf
