import AsOf.Proofs.Load.Place
import AsOf.Proofs.Window.Standing
import AsOf.Study

namespace AsOf

variable {x : Axes} {as : List Action} {value : Float → Float}

theorem Axes.misfit?_schedule (x : Axes) (value : Float → Float) (as : List Action) :
    (x.schedule value as).misfit? x.numDates x.numAssets = none := by
  rw [Schedule.misfit?, List.find?_eq_none]
  rintro ⟨k, c⟩ he
  have hc : c ∈ (x.schedule value as).bucket k := Schedule.mem_entries he
  rw [bucket_schedule] at hc
  obtain ⟨a, ha, rfl⟩ := List.mem_map.mp hc
  obtain ⟨hs, -, -, hk⟩ := falls_iff.mp (List.mem_filter.mp ha).2
  have hcol : x.assets.idxOf a.sid < x.numAssets := List.idxOf_lt_length_of_mem hs
  simp [Correction.multiplyCell, Rect.Fits, hk, hcol]

theorem Loaded.priceWindow_schedule {l : Loaded} {length : Nat}
    (hl : l.price = some (x.schedule value as)) (g : Grid Float x.numDates x.numAssets)
    (hpos : 0 < length) (hle : length ≤ x.numDates) :
    l.priceWindow g length = .ok (Window.standing g (x.schedule value as) length none) := by
  have hfits := x.misfit?_schedule value as
  have hrows : x.numDates ≠ 0 := Nat.ne_of_gt x.numDates_pos
  have hpanel : Panel.make g (x.schedule value as) = .ok ⟨g, x.schedule value as⟩ := by
    unfold Panel.make checkSchedule
    rw [if_neg hrows, hfits]
    rfl
  rw [Loaded.priceWindow, hl]
  simp only [hpanel, Panel.traverse, Window.make_ok hpos hle hfits]
  rfl

end AsOf
