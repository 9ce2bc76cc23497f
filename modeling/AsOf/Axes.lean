import AsOf.Action
import Std.Data.HashSet

namespace AsOf

inductive AxisFault where
  | noDates
  /-- The date at this index is not after the one before it. -/
  | notIncreasing (index : Nat)
  | duplicateAsset (sid : Int)
  deriving DecidableEq

def AxisFault.message : AxisFault → String
  | .noDates => "date axis is empty"
  | .notIncreasing i => s!"date axis not strictly increasing at index {i}"
  | .duplicateAsset sid => s!"duplicate asset in axis: {sid}"

/-- The smallest index from 1 on at which a list does not rise. -/
def firstFall : List Int → Option Nat
  | a :: b :: rest => if b ≤ a then some 1 else (firstFall (b :: rest)).map (· + 1)
  | _ => none

theorem firstFall_eq_none_iff {l : List Int} : firstFall l = none ↔ l.Pairwise (· < ·) := by
  induction l with
  | nil => simp [firstFall]
  | cons a t ih =>
    cases t with
    | nil => simp [firstFall]
    | cons b rest =>
      rw [firstFall]
      split
      · rename_i h
        simp only [reduceCtorEq, false_iff, List.pairwise_cons, not_and]
        intro hab
        exact absurd (hab b (by simp)) (by omega)
      · rename_i h
        rw [Option.map_eq_none_iff, ih, List.pairwise_cons (a := a)]
        refine ⟨fun hp => ⟨fun c hc => ?_, hp⟩, fun hp => hp.2⟩
        rcases List.mem_cons.mp hc with rfl | hc
        · omega
        · have := (List.pairwise_cons.mp hp).1 c hc
          omega

/-- The element of a list that repeats an earlier one, at the smallest place. -/
def firstRepeat (seen : Std.HashSet Int) : List Int → Option Int
  | [] => none
  | a :: rest => if a ∈ seen then some a else firstRepeat (seen.insert a) rest

theorem firstRepeat_eq_none_iff {seen : Std.HashSet Int} {l : List Int} :
    firstRepeat seen l = none ↔ l.Nodup ∧ ∀ a ∈ l, a ∉ seen := by
  induction l generalizing seen with
  | nil => simp [firstRepeat]
  | cons a rest ih =>
    rw [firstRepeat]
    split
    · rename_i h
      simp [h]
    · rename_i h
      rw [ih, List.nodup_cons]
      constructor
      · rintro ⟨hn, hs⟩
        refine ⟨⟨fun ha => hs a ha Std.HashSet.mem_insert_self, hn⟩, fun b hb => ?_⟩
        rcases List.mem_cons.mp hb with rfl | hb
        · exact h
        · exact fun hc => hs b hb (Std.HashSet.mem_insert.mpr (.inr hc))
      · rintro ⟨⟨ha, hn⟩, hs⟩
        refine ⟨hn, fun b hb hc => ?_⟩
        rcases Std.HashSet.mem_insert.mp hc with hab | hc
        · exact ha (eq_of_beq hab ▸ hb)
        · exact hs b (List.mem_cons_of_mem _ hb) hc

/-- The sessions and assets of a request. -/
structure Axes where
  dates : List Int
  assets : List Int
  dates_ne_nil : dates ≠ []
  increasing : dates.Pairwise (· < ·)
  assets_nodup : assets.Nodup

/-- Axes from a list of dates and a list of assets, kept as they are, or the first fault. Dates
are looked at before assets. -/
def Axes.make (dates : List Int) (assets : List Int) : Except AxisFault Axes :=
  if hd : dates = [] then .error .noDates
  else match hf : firstFall dates with
    | some i => .error (.notIncreasing i)
    | none => match hr : firstRepeat ∅ assets with
      | some sid => .error (.duplicateAsset sid)
      | none => .ok ⟨dates, assets, hd, firstFall_eq_none_iff.mp hf,
          (firstRepeat_eq_none_iff.mp hr).1⟩

def Axes.start (x : Axes) : Int := x.dates.head x.dates_ne_nil

def Axes.stop (x : Axes) : Int := x.dates.getLast x.dates_ne_nil

def Axes.span (x : Axes) : Span := ⟨x.start, x.stop⟩

def Axes.numDates (x : Axes) : Nat := x.dates.length

def Axes.numAssets (x : Axes) : Nat := x.assets.length

def day : Int := 86400

def dailySessions (firstDay : Int) (n : Nat) : List Int :=
  (List.range n).map fun (i : Nat) => (firstDay + i) * day

end AsOf
