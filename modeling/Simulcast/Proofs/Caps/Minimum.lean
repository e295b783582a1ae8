import Mathlib.Data.List.Induction
import Mathlib.Data.Set.Insert
import Simulcast.Layer
import Simulcast.Proofs.Binary64.Order

/-!
# The minimum of caps

Caps are compared layer by layer and as numbers, so the sign of a zero does not matter. The minimum
of some caps is, in each layer, no larger than any of them and the same number as one of them. It
can be taken in any order, one after the other.

## Main definitions

* `Caps.IsNumber` — no layer is NaN
* `Caps.IsMinimum` — the layer-wise minimum of a set of caps

## Main results

* `Caps.isMinimum_foldl` — taking the minimum one after the other leads to the minimum of all
* `Caps.IsMinimum.le_of_subset` — the minimum of more caps is no larger
* `Caps.IsMinimum.same` — two minima of the same caps are the same numbers
-/

namespace Simulcast

namespace Caps

variable {b c d : Caps} {s : Set Caps}

/-- All three rates are numbers. -/
def IsNumber (c : Caps) : Prop := ∀ l, (c.get l).bps ≠ .nan

/-- The layer-wise minimum of a set of caps, as numbers. -/
structure IsMinimum (c : Caps) (s : Set Caps) : Prop where
  le : ∀ d ∈ s, ∀ l, c.get l ≤ d.get l
  attained : ∀ l, ∃ d ∈ s, (c.get l).same (d.get l) = true

theorem get_min (c d : Caps) (l : Layer) : (min c d).get l = min (c.get l) (d.get l) := by
  cases l <;> rfl

theorem IsNumber.min (hc : c.IsNumber) : (min c d).IsNumber := by
  intro l
  rw [get_min]
  exact Binary64.min_ne_nan (hc l)

theorem same_iff : c.same d = true ↔ ∀ l, (c.get l).same (d.get l) = true := by
  simp only [same, Bool.and_eq_true]
  constructor
  · rintro ⟨⟨hh, hm⟩, hl⟩ l
    cases l <;> assumption
  · intro h
    exact ⟨⟨h .high, h .medium⟩, h .low⟩

/-- The place of the rate of a layer. -/
def place (c : Caps) (l : Layer) : Int := (c.get l).bps.place

theorem le_iff_place_le (hc : c.IsNumber) (hd : d.IsNumber) (l : Layer) :
    c.get l ≤ d.get l ↔ c.place l ≤ d.place l :=
  Binary64.le_iff_place_le (hc l) (hd l)

theorem get_same_iff (hc : c.IsNumber) (hd : d.IsNumber) (l : Layer) :
    (c.get l).same (d.get l) = true ↔ c.place l = d.place l :=
  Binary64.same_iff_place_eq (hc l) (hd l)

theorem same_iff_place_eq (hc : c.IsNumber) (hd : d.IsNumber) :
    c.same d = true ↔ ∀ l, c.place l = d.place l := by
  rw [same_iff]
  exact forall_congr' (get_same_iff hc hd)

theorem isNumber_of_same (h : c.same d = true) : c.IsNumber ∧ d.IsNumber := by
  rw [same_iff] at h
  exact ⟨fun l => (Binary64.ne_nan_of_same (h l)).1, fun l => (Binary64.ne_nan_of_same (h l)).2⟩

theorem same_refl (hc : c.IsNumber) : c.same c = true :=
  (same_iff_place_eq hc hc).2 fun _ => rfl

theorem place_min (hc : c.IsNumber) (hd : d.IsNumber) (l : Layer) :
    (Min.min c d).place l = Min.min (c.place l) (d.place l) := by
  simp only [place, get_min]
  exact Binary64.place_min (hc l) (hd l)

theorem isMinimum_singleton (hc : c.IsNumber) : c.IsMinimum {c} where
  le := by
    rintro _ rfl l
    exact (le_iff_place_le hc hc l).2 le_rfl
  attained l := ⟨c, rfl, (get_same_iff hc hc l).2 rfl⟩

/-- The minimum with one more caps. -/
theorem IsMinimum.insert (h : c.IsMinimum s) (hs : ∀ b ∈ s, b.IsNumber) (hc : c.IsNumber)
    (hd : d.IsNumber) : (Min.min c d).IsMinimum (insert d s) where
  le := by
    rintro b (rfl | hb) l
    · rw [le_iff_place_le (hc.min) hd, place_min hc hd]
      exact min_le_right _ _
    · rw [le_iff_place_le (hc.min) (hs b hb), place_min hc hd]
      exact (min_le_left _ _).trans ((le_iff_place_le hc (hs b hb) l).1 (h.le b hb l))
  attained l := by
    rcases le_total (c.place l) (d.place l) with hle | hle
    · obtain ⟨b, hb, hsame⟩ := h.attained l
      refine ⟨b, Or.inr hb, (get_same_iff (hc.min) (hs b hb) l).2 ?_⟩
      rw [place_min hc hd, min_eq_left hle]
      exact (get_same_iff hc (hs b hb) l).1 hsame
    · refine ⟨d, Or.inl rfl, (get_same_iff (hc.min) hd l).2 ?_⟩
      rw [place_min hc hd, min_eq_right hle]

theorem isNumber_foldl (hc : c.IsNumber) (all : List Caps) :
    (all.foldl Min.min c).IsNumber := by
  induction all generalizing c with
  | nil => exact hc
  | cons d all ih => exact ih hc.min

/-- Taking the minimum one after the other leads to the minimum of all. -/
theorem isMinimum_foldl (hc : c.IsNumber) (all : List Caps) (hall : ∀ d ∈ all, d.IsNumber) :
    (all.foldl Min.min c).IsMinimum {d | d = c ∨ d ∈ all} := by
  -- The induction appends at the end, where the fold takes its last step.
  induction all using List.reverseRecOn with
  | nil => simpa using isMinimum_singleton hc
  | append_singleton all d ih =>
    have hbefore : ∀ b ∈ all, b.IsNumber := fun b hb => hall b (by simp [hb])
    rw [List.foldl_append, List.foldl_cons, List.foldl_nil]
    have h := (ih hbefore).insert (d := d)
      (by rintro b (rfl | hb); exacts [hc, hbefore b hb])
      (isNumber_foldl hc all) (hall d (by simp))
    convert h using 1
    ext b
    simp only [Set.mem_ofPred_eq, Set.mem_insert_iff, List.mem_append, List.mem_singleton]
    tauto

theorem IsMinimum.isNumber (h : c.IsMinimum s) : c.IsNumber := by
  intro l
  obtain ⟨d, -, hd⟩ := h.attained l
  exact (Binary64.ne_nan_of_same hd).1

/-- The minimum of some caps is no larger than the minimum of a part of them. -/
theorem IsMinimum.le_of_subset {t : Set Caps} (hs : ∀ b ∈ s, b.IsNumber) (hc : c.IsMinimum s)
    (hd : d.IsMinimum t) (hsub : t ⊆ s) (l : Layer) : c.get l ≤ d.get l := by
  -- The minimum of the part is attained by a member, which the other one does not exceed.
  obtain ⟨b, hb, hsame⟩ := hd.attained l
  have hnumber : b.IsNumber := hs b (hsub hb)
  rw [le_iff_place_le hc.isNumber hd.isNumber, (get_same_iff hd.isNumber hnumber l).1 hsame]
  exact (le_iff_place_le hc.isNumber hnumber l).1 (hc.le b (hsub hb) l)

/-- Two minima of the same caps are the same numbers. -/
theorem IsMinimum.same (hs : ∀ b ∈ s, b.IsNumber) (hc : c.IsMinimum s) (hd : d.IsMinimum s) :
    c.same d = true := by
  rw [same_iff_place_eq hc.isNumber hd.isNumber]
  intro l
  exact le_antisymm
    ((le_iff_place_le hc.isNumber hd.isNumber l).1 (hc.le_of_subset hs hd subset_rfl l))
    ((le_iff_place_le hd.isNumber hc.isNumber l).1 (hd.le_of_subset hs hc subset_rfl l))

/-- What is the same as a minimum is one. -/
theorem IsMinimum.of_same (hs : ∀ b ∈ s, b.IsNumber) (h : c.IsMinimum s)
    (hsame : c.same d = true) : d.IsMinimum s where
  le b hb l := by
    have hd := (isNumber_of_same hsame).2
    rw [le_iff_place_le hd (hs b hb), ← (same_iff_place_eq h.isNumber hd).1 hsame l]
    exact (le_iff_place_le h.isNumber (hs b hb) l).1 (h.le b hb l)
  attained l := by
    have hd := (isNumber_of_same hsame).2
    obtain ⟨b, hb, hbsame⟩ := h.attained l
    refine ⟨b, hb, (get_same_iff hd (hs b hb) l).2 ?_⟩
    rw [← (same_iff_place_eq h.isNumber hd).1 hsame l]
    exact (get_same_iff h.isNumber (hs b hb) l).1 hbsame

end Caps

end Simulcast
