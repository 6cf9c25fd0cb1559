import XrdpConsole.PixmanCanonical

/-!
# Regions as sets of pixels

Union, intersection and difference of canonical regions, quick cases included, give canonical
regions for the union, the intersection and the difference of their pixels.
-/

namespace XrdpConsole.PixmanRegion

open XrdpConsole.Library

set_option autoImplicit false

def PixRegion.Has (reg : PixRegion) (x y : Int) : Prop := Covered reg.rects x y

@[simp] theorem has_nil (extents : Box) (x y : Int) :
    ¬PixRegion.Has { extents := extents, data := some [] } x y :=
  covered_nil x y

@[simp] theorem has_box (extents : Box) (x y : Int) :
    PixRegion.Has { extents := extents, data := none } x y ↔ extents.inBox x y = true := by
  simp [PixRegion.Has, PixRegion.rects, Covered]

theorem has_none_iff {reg : PixRegion} (single : reg.data = none) (x y : Int) :
    reg.Has x y ↔ reg.extents.inBox x y = true := by
  cases reg
  subst single
  exact has_box ..

theorem not_has_of_nil {reg : PixRegion} (nil : reg.isNil = true) (x y : Int) : ¬reg.Has x y := by
  rw [PixRegion.Has, (is_nil_iff reg).mp nil]
  exact covered_nil x y

theorem has_inside {reg : PixRegion} (canonical : Canonical reg) {x y : Int} (has : reg.Has x y) :
    reg.extents.inBox x y = true := by
  apply (canonical.tight _).inside x y has
  intro none
  rw [PixRegion.Has, none] at has
  exact covered_nil x y has

/-- Regions whose extents do not meet share no pixel. -/
theorem not_has_both {reg1 reg2 : PixRegion} (canonical1 : Canonical reg1)
    (canonical2 : Canonical reg2) (reject : reg1.extents.extentCheck reg2.extents = false)
    (x y : Int) : ¬(reg1.Has x y ∧ reg2.Has x y) := by
  rintro ⟨has1, has2⟩
  have inside1 := (in_box_iff _ _ _).mp (has_inside canonical1 has1)
  have inside2 := (in_box_iff _ _ _).mp (has_inside canonical2 has2)
  simp only [Box.extentCheck, Bool.not_eq_false', Bool.or_eq_true, decide_eq_true_eq] at reject
  omega

theorem subsumes_has {reg1 reg2 : PixRegion} (canonical2 : Canonical reg2)
    (single : reg1.data = none) (subsumes : reg1.extents.subsumes reg2.extents = true) {x y : Int}
    (has : reg2.Has x y) : reg1.Has x y := by
  have inside := (in_box_iff _ _ _).mp (has_inside canonical2 has)
  simp only [Box.subsumes, Bool.and_eq_true, decide_eq_true_eq] at subsumes
  rw [has_none_iff single, in_box_iff]
  omega

/-! ## The result of `pixman_op` -/

theorem keep_boxes_rects (extents : Box) (boxes : List Box) :
    (keepBoxes extents boxes).rects = boxes := by
  cases boxes with
  | nil => rfl
  | cons box rest => cases rest <;> rfl

theorem canonical_set_extents {bands : List Band} (banded : Banded bands) (extents : Box) :
    let reg := pixmanSetExtents (keepBoxes extents (bandsBoxes bands))
    Canonical reg ∧ reg.rects = bandsBoxes bands := by
  intro reg
  have solid : ∀ box ∈ bandsBoxes bands, box.Solid := fun box member => banded_solid banded member
  have before := banded_before banded
  generalize same : bandsBoxes bands = boxes at *
  cases boxes with
  | nil =>
      have emptiedReg : reg = emptied extents := by
        simp [reg, same, keepBoxes, pixmanSetExtents, emptied]
      rw [emptiedReg]
      exact ⟨canonical_emptied extents, rfl⟩
  | cons box rest =>
      cases rest with
      | nil =>
          have one : reg = { extents := box, data := none } := by
            simp [reg, same, keepBoxes, pixmanSetExtents]
          rw [one]
          exact ⟨canonical_box (solid box (by simp)), rfl⟩
      | cons next rest =>
          have many : reg.rects = box :: next :: rest := by
            simp [reg, same, keepBoxes, pixmanSetExtents, PixRegion.rects]
          refine ⟨⟨⟨bands, banded, by rw [many, same]⟩, ?_, ?_, ?_⟩, many⟩
          · intro single
            rw [PixRegion.numRects, many] at single
            simp at single
          · intro
            have folded : reg.extents = (box :: next :: rest).foldl setExtentsStep
                { x1 := box.x1
                  y1 := box.y1
                  x2 := ((box :: next :: rest).getLast (List.cons_ne_nil _ _)).x2
                  y2 := ((box :: next :: rest).getLast (List.cons_ne_nil _ _)).y2 } := by
              simp [reg, same, keepBoxes, pixmanSetExtents]
            rw [many, folded]
            apply fold_extents_tight solid before
            · exact ⟨rfl, rfl⟩
            · exact ⟨box, List.mem_cons_self .., rfl⟩
            · exact ⟨_, List.getLast_mem _, rfl⟩
            · exact fun other member => .inl member
            · exact fun other member => member
          · intro none
            rw [many] at none
            simp at none

theorem op_region {overlapFunc : OverlapProc} {appendNon1 appendNon2 : Bool}
    {op : Prop → Prop → Prop} (operates : Operates overlapFunc appendNon1 appendNon2 op)
    {reg1 reg2 : PixRegion} (canonical1 : Canonical reg1) (canonical2 : Canonical reg2)
    (some1 : reg1.isNil = false) (some2 : reg2.isNil = false) :
    ∃ bands, Banded bands ∧
      pixmanOp overlapFunc appendNon1 appendNon2 reg1 reg2 =
        keepBoxes reg1.extents (bandsBoxes bands) ∧
      ∀ x y, Covered (bandsBoxes bands) x y ↔ op (reg1.Has x y) (reg2.Has x y) := by
  obtain ⟨bands1, banded1, boxes1⟩ := canonical1.banded
  obtain ⟨bands2, banded2, boxes2⟩ := canonical2.banded
  have filled1 : bandsBoxes bands1 ≠ [] := by
    rw [← boxes1]
    exact fun none => by simp [(is_nil_iff reg1).mpr none] at some1
  have filled2 : bandsBoxes bands2 ≠ [] := by
    rw [← boxes2]
    exact fun none => by simp [(is_nil_iff reg2).mpr none] at some2
  obtain ⟨bands, banded, same, meaning⟩ :=
    op_boxes_banded operates banded1 banded2 filled1 filled2
  refine ⟨bands, banded, ?_, ?_⟩
  · rw [pixmanOp, boxes1, boxes2, same]
  · intro x y
    rw [meaning, PixRegion.Has, PixRegion.Has, boxes1, boxes2]

/-! ## The three operations -/

theorem single_solid {reg : PixRegion} (canonical : Canonical reg) (single : reg.data = none) :
    reg.extents.Solid := by
  apply canonical_solid canonical
  simp [PixRegion.rects, single]

theorem intersect_extents_solid {extents1 extents2 : Box} (solid1 : extents1.Solid)
    (solid2 : extents2.Solid) (check : extents1.extentCheck extents2 = true) :
    (intersectExtents extents1 extents2).Solid := by
  simp only [Box.extentCheck, Bool.not_eq_true', Bool.or_eq_false_iff,
    decide_eq_false_iff_not] at check
  simp only [Box.Solid, intersectExtents] at *
  omega

/-- The boxes of a union with the extents that `pixman_region_union` sets. -/
theorem union_extents_region {bands : List Band} (banded : Banded bands)
    {pixels1 pixels2 : Int → Int → Prop} {extents1 extents2 : Box}
    (meaning : ∀ x y, Covered (bandsBoxes bands) x y ↔ pixels1 x y ∨ pixels2 x y)
    (tight1 : Tight pixels1 extents1) (tight2 : Tight pixels2 extents2) :
    let kept := keepBoxes extents1 (bandsBoxes bands)
    let reg : PixRegion := { kept with extents := unionExtents kept.extents extents2 }
    Canonical reg ∧ ∀ x y, reg.Has x y ↔ pixels1 x y ∨ pixels2 x y := by
  intro kept reg
  have solid : ∀ box ∈ bandsBoxes bands, box.Solid := fun box member => banded_solid banded member
  have rects : kept.rects = bandsBoxes bands := keep_boxes_rects ..
  generalize same : bandsBoxes bands = boxes at *
  cases boxes with
  | nil =>
      obtain ⟨y, found⟩ := tight1.left
      exact absurd ((meaning _ y).mpr (.inl found)) (covered_nil _ y)
  | cons box rest =>
      cases rest with
      | nil =>
          have boxSolid := solid box (List.mem_singleton.mpr rfl)
          have grown : unionExtents box extents2 = box := by
            apply tight_unique _ (tight_box boxSolid)
            apply tight_congr (tight_union (tight_box boxSolid) tight2)
            intro x y
            rw [meaning]
            tauto
          have one : reg = { extents := box, data := none } := by
            simp only [reg, kept, same, keepBoxes, grown]
          rw [one]
          exact ⟨canonical_box boxSolid, meaning⟩
      | cons next rest =>
          have many : reg = {
              extents := unionExtents extents1 extents2, data := some (box :: next :: rest) } := by
            simp only [reg, kept, same, keepBoxes]
          rw [many]
          refine ⟨⟨⟨bands, banded, same.symm⟩, ?_, ?_, ?_⟩, meaning⟩
          · simp [PixRegion.numRects, PixRegion.rects]
          · intro
            apply tight_congr (tight_union tight1 tight2)
            intro x y
            exact (meaning x y).symm
          · simp [PixRegion.rects]

theorem intersect_region {reg1 reg2 : PixRegion} (canonical1 : Canonical reg1)
    (canonical2 : Canonical reg2) :
    Canonical (pixmanRegionIntersect reg1 reg2) ∧
      ∀ x y, (pixmanRegionIntersect reg1 reg2).Has x y ↔ reg1.Has x y ∧ reg2.Has x y := by
  rw [pixmanRegionIntersect]
  split
  · next reject =>
      refine ⟨canonical_emptied reg1.extents, ?_⟩
      intro x y
      apply iff_of_false (has_nil _ x y)
      rintro ⟨has1, has2⟩
      simp only [Bool.or_eq_true, Bool.not_eq_true'] at reject
      rcases reject with (nil1 | nil2) | apart
      · exact not_has_of_nil nil1 x y has1
      · exact not_has_of_nil nil2 x y has2
      · exact not_has_both canonical1 canonical2 apart x y ⟨has1, has2⟩
  · next meet =>
      simp only [Bool.or_eq_true, Bool.not_eq_true', not_or, Bool.not_eq_true,
        Bool.not_eq_false] at meet
      rcases meet with ⟨⟨some1, some2⟩, check⟩
      split
      · next both =>
          simp only [Bool.and_eq_true, Option.isNone_iff_eq_none] at both
          have solid1 := single_solid canonical1 both.1
          have solid2 := single_solid canonical2 both.2
          refine ⟨canonical_box (intersect_extents_solid solid1 solid2 check), fun x y => ?_⟩
          rw [has_box, has_none_iff both.1, has_none_iff both.2, in_box_iff, in_box_iff,
            in_box_iff]
          simp only [intersectExtents]
          omega
      · split
        · next within =>
            simp only [Bool.and_eq_true, Option.isNone_iff_eq_none] at within
            refine ⟨canonical1, fun x y => ?_⟩
            constructor
            · intro has
              exact ⟨has, subsumes_has canonical1 within.1 within.2 has⟩
            · exact And.left
        · split
          · next within =>
              simp only [Bool.and_eq_true, Option.isNone_iff_eq_none] at within
              refine ⟨canonical2, fun x y => ?_⟩
              constructor
              · intro has
                exact ⟨subsumes_has canonical2 within.1 within.2 has, has⟩
              · exact And.right
          · obtain ⟨bands, banded, same, meaning⟩ :=
              op_region operates_intersect canonical1 canonical2 some1 some2
            have result := canonical_set_extents banded reg1.extents
            rw [same]
            refine ⟨result.1, fun x y => ?_⟩
            rw [PixRegion.Has, result.2, meaning]

theorem subtract_region {regM regS : PixRegion} (canonicalM : Canonical regM)
    (canonicalS : Canonical regS) :
    Canonical (pixmanRegionSubtract regM regS) ∧
      ∀ x y, (pixmanRegionSubtract regM regS).Has x y ↔ regM.Has x y ∧ ¬regS.Has x y := by
  rw [pixmanRegionSubtract]
  split
  · next reject =>
      refine ⟨canonicalM, fun x y => ?_⟩
      constructor
      · intro has
        refine ⟨has, fun taken => ?_⟩
        simp only [Bool.or_eq_true, Bool.not_eq_true'] at reject
        rcases reject with (nilM | nilS) | apart
        · exact not_has_of_nil nilM x y has
        · exact not_has_of_nil nilS x y taken
        · exact not_has_both canonicalM canonicalS apart x y ⟨has, taken⟩
      · exact And.left
  · next meet =>
      simp only [Bool.or_eq_true, Bool.not_eq_true', not_or, Bool.not_eq_true,
        Bool.not_eq_false] at meet
      obtain ⟨bands, banded, same, meaning⟩ :=
        op_region operates_subtract canonicalM canonicalS meet.1.1 meet.1.2
      have result := canonical_set_extents banded regM.extents
      rw [same]
      refine ⟨result.1, fun x y => ?_⟩
      rw [PixRegion.Has, result.2, meaning]

theorem union_region {reg1 reg2 : PixRegion} (canonical1 : Canonical reg1)
    (canonical2 : Canonical reg2) :
    Canonical (pixmanRegionUnion reg1 reg2) ∧
      ∀ x y, (pixmanRegionUnion reg1 reg2).Has x y ↔ reg1.Has x y ∨ reg2.Has x y := by
  rw [pixmanRegionUnion]
  split
  · next nil1 =>
      refine ⟨canonical2, fun x y => ?_⟩
      simp [not_has_of_nil nil1 x y]
  · next some1 =>
      split
      · next nil2 =>
          refine ⟨canonical1, fun x y => ?_⟩
          simp [not_has_of_nil nil2 x y]
      · next some2 =>
          split
          · next within =>
              simp only [Bool.and_eq_true, Option.isNone_iff_eq_none] at within
              refine ⟨canonical1, fun x y => ?_⟩
              constructor
              · exact .inl
              · rintro (has | has)
                · exact has
                · exact subsumes_has canonical2 within.1 within.2 has
          · split
            · next within =>
                simp only [Bool.and_eq_true, Option.isNone_iff_eq_none] at within
                refine ⟨canonical2, fun x y => ?_⟩
                constructor
                · exact .inr
                · rintro (has | has)
                  · exact subsumes_has canonical1 within.1 within.2 has
                  · exact has
            · obtain ⟨bands, banded, same, meaning⟩ :=
                op_region operates_union canonical1 canonical2 (by simpa using some1)
                  (by simpa using some2)
              rw [same]
              exact union_extents_region banded meaning
                (canonical1.tight (by simpa [is_nil_iff] using some1))
                (canonical2.tight (by simpa [is_nil_iff] using some2))

end XrdpConsole.PixmanRegion
