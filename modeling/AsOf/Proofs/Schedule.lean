import AsOf.Schedule

namespace AsOf

namespace Schedule

variable {α : Type} {s t : Schedule α} {c r k row : Nat}

theorem rows_pairwise (s : Schedule α) : s.rows.Pairwise (· < ·) := s.ascending

theorem lookup_cons_eq_ite {l : List (Nat × List (Correction α))} {b : List (Correction α)} :
    ((r, b) :: l).lookup k = if k = r then some b else l.lookup k := by
  rw [List.lookup_cons]
  by_cases h : k = r
  · simp [h]
  · simp [h, beq_eq_false_iff_ne.mpr h]

theorem lookup_eq_none_of_forall_lt {l : List (Nat × List (Correction α))}
    (h : ∀ j ∈ l.map Prod.fst, k < j) : l.lookup k = none := by
  rw [List.lookup_eq_none_iff]
  intro b hb
  exact bne_iff_ne.mpr (Nat.ne_of_lt (h b.1 (List.mem_map_of_mem hb)))

theorem lookup_fileUnder (row : Nat) (cs : List (Correction α))
    {l : List (Nat × List (Correction α))} (h : (l.map Prod.fst).Pairwise (· < ·)) (k : Nat) :
    (fileUnder row cs l).lookup k =
      if k = row then some ((l.lookup row).getD [] ++ cs) else l.lookup k := by
  induction l with
  | nil => exact lookup_cons_eq_ite
  | cons b l ih =>
    obtain ⟨j, bucket⟩ := b
    obtain ⟨hj, hl⟩ := List.pairwise_cons.mp h
    rw [fileUnder]
    split
    · rename_i hlt
      have hnone : ((j, bucket) :: l).lookup row = none := by
        apply lookup_eq_none_of_forall_lt
        intro i hi
        rcases List.mem_cons.mp hi with rfl | hi
        · exact hlt
        · exact Nat.lt_trans hlt (hj i hi)
      rw [hnone]
      exact lookup_cons_eq_ite
    · split
      · rename_i he
        subst he
        by_cases hk : k = row <;> simp [lookup_cons_eq_ite, hk]
      · rename_i hlt hne
        have hne' : j ≠ row := fun he => hne he.symm
        simp only [lookup_cons_eq_ite, ih hl, if_neg hne]
        by_cases hk : k = j
        · simp [hk, hne']
        · simp [hk]

@[simp] theorem bucket_empty : (Schedule.empty : Schedule α).bucket k = [] := rfl

@[simp] theorem rows_empty : (Schedule.empty : Schedule α).rows = [] := rfl

theorem bucket_append (s : Schedule α) (row : Nat) (cs : List (Correction α)) :
    (s.append row cs).bucket k = if k = row then s.bucket k ++ cs else s.bucket k := by
  have h := lookup_fileUnder row cs s.ascending k
  rw [bucket, append, h]
  by_cases hk : k = row
  · simp [hk, bucket]
  · simp [hk, bucket]

theorem mem_rows_append (s : Schedule α) (row : Nat) (cs : List (Correction α)) :
    k ∈ (s.append row cs).rows ↔ k = row ∨ k ∈ s.rows :=
  mem_keys_fileUnder

def pushAll (s : Schedule α) (l : List (Nat × Correction α)) : Schedule α :=
  l.foldl (fun s e => s.push e.1 e.2) s

theorem pushAll_append (s : Schedule α) (l m : List (Nat × Correction α)) :
    s.pushAll (l ++ m) = (s.pushAll l).pushAll m :=
  List.foldl_append

theorem bucket_pushAll (s : Schedule α) (l : List (Nat × Correction α)) (k : Nat) :
    (s.pushAll l).bucket k = s.bucket k ++ (l.filter (·.1 = k)).map Prod.snd := by
  induction l generalizing s with
  | nil => simp [pushAll]
  | cons e l ih =>
    have hpush : (s.push e.1 e.2).bucket k =
        if k = e.1 then s.bucket k ++ [e.2] else s.bucket k := s.bucket_append e.1 [e.2]
    change ((s.push e.1 e.2).pushAll l).bucket k = _
    rw [ih, hpush]
    by_cases hk : e.1 = k
    · simp [hk]
    · simp [hk, Ne.symm hk]

theorem mem_rows_pushAll {s : Schedule α} {l : List (Nat × Correction α)} :
    k ∈ (s.pushAll l).rows ↔ k ∈ s.rows ∨ k ∈ l.map Prod.fst := by
  induction l generalizing s with
  | nil => simp [pushAll]
  | cons e l ih =>
    change k ∈ ((s.push e.1 e.2).pushAll l).rows ↔ _
    rw [ih, push, mem_rows_append, List.map_cons, List.mem_cons]
    exact or_assoc.trans or_left_comm

theorem buckets_eq (s : Schedule α) : s.buckets = s.rows.map fun k => (k, s.bucket k) := by
  obtain ⟨l, h⟩ := s
  simp only [rows, bucket]
  induction l with
  | nil => rfl
  | cons b l ih =>
    obtain ⟨j, cs⟩ := b
    obtain ⟨hj, hl⟩ := List.pairwise_cons.mp h
    have htail : l.map (fun b => (b.1, (((j, cs) :: l).lookup b.1).getD [])) =
        l.map (fun b => (b.1, (l.lookup b.1).getD [])) := by
      apply List.map_congr_left
      intro b hb
      have hne : (b.1 == j) = false :=
        beq_eq_false_iff_ne.mpr (Nat.ne_of_gt (hj b.1 (List.mem_map_of_mem hb)))
      rw [List.lookup_cons, hne]
    have ih := ih hl
    simp only [List.map_map] at ih
    simp only [List.map_cons, List.map_map, List.lookup_cons, beq_self_eq_true]
    exact congrArg _ (ih.trans htail.symm)

theorem rows_ext (h : ∀ k, k ∈ s.rows ↔ k ∈ t.rows) : s.rows = t.rows := by
  have hs := s.rows_pairwise
  have ht := t.rows_pairwise
  have hp : s.rows.Perm t.rows :=
    (List.perm_ext_iff_of_nodup (hs.imp Nat.ne_of_lt) (ht.imp Nat.ne_of_lt)).mpr h
  exact hp.eq_of_pairwise (fun a b _ _ hab hba => absurd hab (Nat.lt_asymm hba)) hs ht

theorem ext_bucket (hr : ∀ k, k ∈ s.rows ↔ k ∈ t.rows) (hb : ∀ k, s.bucket k = t.bucket k) :
    s = t := by
  have he : s.buckets = t.buckets := by
    rw [s.buckets_eq, t.buckets_eq, rows_ext hr]
    exact List.map_congr_left fun k _ => by rw [hb]
  cases s
  cases t
  cases he
  rfl

theorem mem_rows_restrict {p : Nat → Bool} : k ∈ (s.restrict p).rows ↔ k ∈ s.rows ∧ p k := by
  simp only [rows, restrict, List.mem_map, List.mem_filter]
  constructor
  · rintro ⟨b, ⟨hb, hp⟩, rfl⟩
    exact ⟨⟨b, hb, rfl⟩, hp⟩
  · rintro ⟨⟨b, hb, rfl⟩, hp⟩
    exact ⟨b, ⟨hb, hp⟩, rfl⟩

theorem bucket_restrict (s : Schedule α) (p : Nat → Bool) (k : Nat) :
    (s.restrict p).bucket k = if p k then s.bucket k else [] := by
  obtain ⟨l, h⟩ := s
  simp only [bucket, restrict]
  clear h
  induction l with
  | nil => simp
  | cons b l ih =>
    obtain ⟨j, cs⟩ := b
    by_cases hp : p j
    · rw [List.filter_cons_of_pos (by exact hp)]
      by_cases hk : k = j
      · simp [hk, hp]
      · simpa [lookup_cons_eq_ite, hk] using ih
    · rw [List.filter_cons_of_neg (by exact hp)]
      by_cases hk : k = j
      · subst hk
        simpa [hp] using ih
      · simpa [lookup_cons_eq_ite, hk] using ih

@[simp] theorem mem_rows_through : k ∈ (s.through c).rows ↔ k ∈ s.rows ∧ k ≤ c := by
  simp [through, mem_rows_restrict]

@[simp] theorem mem_rows_after : k ∈ (s.after c).rows ↔ k ∈ s.rows ∧ c < k := by
  simp [after, mem_rows_restrict]

theorem bucket_through (s : Schedule α) (c k : Nat) :
    (s.through c).bucket k = if k ≤ c then s.bucket k else [] := by
  simp [through, bucket_restrict]

/-- Cutting after a row loses nothing: rows ascend, so the two parts follow each other. -/
theorem through_append_after (s : Schedule α) (c : Nat) :
    (s.through c).buckets ++ (s.after c).buckets = s.buckets := by
  obtain ⟨l, h⟩ := s
  simp only [through, after, restrict]
  induction l with
  | nil => rfl
  | cons b l ih =>
    obtain ⟨hb, hl⟩ := List.pairwise_cons.mp h
    by_cases hc : b.1 ≤ c
    · rw [List.filter_cons_of_pos (by simpa using hc), List.filter_cons_of_neg (by simpa using hc),
        List.cons_append, ih hl]
    · have hlt : ∀ x ∈ b :: l, c < x.1 := by
        intro x hx
        rcases List.mem_cons.mp hx with rfl | hx
        · omega
        · exact Nat.lt_trans (by omega) (hb x.1 (List.mem_map_of_mem hx))
      rw [List.filter_eq_nil_iff.mpr fun x hx => by simpa using hlt x hx,
        List.filter_eq_self.mpr fun x hx => by simpa using hlt x hx, List.nil_append]

theorem through_through (h : c ≤ r) : (s.through r).through c = s.through c := by
  simp only [through, restrict, List.filter_filter, Schedule.mk.injEq]
  apply List.filter_congr
  intro b _
  grind

theorem after_after (h : c ≤ r) : (s.after c).after r = s.after r := by
  simp only [after, restrict, List.filter_filter, Schedule.mk.injEq]
  apply List.filter_congr
  intro b _
  grind

theorem after_through : (s.after c).through r = (s.through r).after c := by
  simp only [after, through, restrict, List.filter_filter, Bool.and_comm]

theorem through_append_between (h : c ≤ r) :
    (s.through c).buckets ++ ((s.after c).through r).buckets = (s.through r).buckets := by
  rw [after_through, ← through_through h, through_append_after]

theorem corrections_eq (s : Schedule α) : s.corrections = s.rows.flatMap s.bucket := by
  rw [corrections, s.buckets_eq, List.flatMap_map]

theorem rows_restrict (s : Schedule α) (p : Nat → Bool) :
    (s.restrict p).rows = s.rows.filter p := by
  rw [rows, rows, List.filter_map]
  rfl

theorem rows_through (s : Schedule α) (c : Nat) : (s.through c).rows = s.rows.filter (· ≤ c) :=
  s.rows_restrict _

theorem corrections_restrict (s : Schedule α) (p : Nat → Bool) :
    (s.restrict p).corrections = (s.rows.filter p).flatMap s.bucket := by
  rw [corrections_eq, rows_restrict]
  simp only [List.flatMap_def]
  congr 1
  apply List.map_congr_left
  intro k hk
  rw [bucket_restrict, if_pos (List.mem_filter.mp hk).2]

theorem corrections_through (s : Schedule α) (c : Nat) :
    (s.through c).corrections = (s.rows.filter (· ≤ c)).flatMap s.bucket :=
  s.corrections_restrict _

theorem corrections_append_between (h : c ≤ r) :
    (s.through c).corrections ++ ((s.after c).through r).corrections =
      (s.through r).corrections := by
  simp only [corrections, ← List.flatMap_append, through_append_between h]

theorem rows_append_between (h : c ≤ r) :
    (s.through c).rows ++ ((s.after c).through r).rows = (s.through r).rows := by
  simp only [rows, ← List.map_append, through_append_between h]

theorem mem_entries {e : Nat × Correction α} (h : e ∈ s.entries) : e.2 ∈ s.bucket e.1 := by
  obtain ⟨b, hb, he⟩ := List.mem_flatMap.mp h
  obtain ⟨x, hx, rfl⟩ := List.mem_map.mp he
  rw [s.buckets_eq] at hb
  obtain ⟨k, -, rfl⟩ := List.mem_map.mp hb
  exact hx

end Schedule

end AsOf
