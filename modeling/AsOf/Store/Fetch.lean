import AsOf.Store.Source

namespace AsOf

/-- Consecutive pieces of a list, each of the given size except that the last may be smaller. -/
def chunks {α : Type} (size : Nat) (h : 0 < size) (l : List α) : List (List α) :=
  if l = [] then [] else l.take size :: chunks size h (l.drop size)
termination_by l.length
decreasing_by
  have := List.length_pos_iff.mpr ‹¬l = []›
  simp only [List.length_drop]
  omega

theorem chunks_of_ne_nil {α : Type} {size : Nat} (h : 0 < size) {l : List α} (hl : l ≠ []) :
    chunks size h l = l.take size :: chunks size h (l.drop size) := by
  rw [chunks, if_neg hl]

theorem flatten_chunks {α : Type} (size : Nat) (h : 0 < size) (l : List α) :
    (chunks size h l).flatten = l := by
  fun_induction chunks size h l with
  | case1 => rfl
  | case2 l _ ih => rw [List.flatten_cons, ih, List.take_append_drop]

theorem mem_chunks {α : Type} {size : Nat} {h : 0 < size} {l piece : List α}
    (hp : piece ∈ chunks size h l) : piece ≠ [] ∧ piece.length ≤ size := by
  fun_induction chunks size h l with
  | case1 => cases hp
  | case2 l hl ih =>
    rcases List.mem_cons.mp hp with rfl | hp
    · refine ⟨fun he => ?_, List.length_take_le size l⟩
      rcases List.take_eq_nil_iff.mp he with hsize | hnil
      · omega
      · exact hl hnil
    · exact ih hp

/-- The number of assets that one query may name. -/
def Source.chunkSize (s : Source) : Except StoreFault { n : Nat // 0 < n } :=
  if h : rangeParams < s.maxParams then .ok ⟨s.maxParams - rangeParams, Nat.sub_pos_of_lt h⟩
  else .error (.parameterLimit s.maxParams rangeParams)

theorem Source.chunkSize_eq (s : Source) (h : rangeParams < s.maxParams) :
    s.chunkSize = .ok ⟨s.maxParams - rangeParams, Nat.sub_pos_of_lt h⟩ := by
  rw [chunkSize, dif_pos h]

theorem Source.chunkSize_eq_error (s : Source) (h : s.maxParams ≤ rangeParams) :
    s.chunkSize = .error (.parameterLimit s.maxParams rangeParams) := by
  rw [chunkSize, dif_neg (Nat.not_lt.mpr h)]

def Source.resolve (s : Source) (c : Category) (span : Span) : Run StoreFault SidSet := do
  let sids ← s.askSids c span
  Run.log (.resolved c span sids.size)
  return sids

def Source.fetchChunks (s : Source) (c : Category) (span : Span) (n : Nat) :
    List (List Int) → Run StoreFault (List Action)
  | [] => return []
  | sids :: rest => do
    let rows ← s.askActions c sids span
    Run.log (.fetchedChunk c n (sids.length + rangeParams) rows.length)
    let more ← s.fetchChunks c span (n + 1) rest
    return rows ++ more

/-- The actions of a kind of the given assets in a range. Assets may come in any order and more
than once; the parameter limit is checked before anything is asked. -/
def Source.fetch (s : Source) (c : Category) (candidates : List Int) (span : Span) :
    Run StoreFault (List Action) := do
  let ⟨size, h⟩ ← Run.ofExcept s.chunkSize
  s.fetchChunks c span 0 (chunks size h (SidSet.ofList candidates).toList)

end AsOf
