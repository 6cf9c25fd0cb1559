import XrdpConsole.PixmanRows

/-!
# Bands

A list of boxes in the form pixman keeps: bands one below the other, the boxes of a band side by
side, and bands that touch with different columns. `pixman_op` goes over the bands of its two
sources and adds bands to the destination, with the last one open for coalescing.
-/

namespace XrdpConsole.PixmanRegion

open XrdpConsole.Library

set_option autoImplicit false

abbrev Band := Run Int (List (Run Int Unit))

def bandBoxes (band : Band) : List Box := row band.label band.low band.high

def bandsBoxes (bands : List Band) : List Box := bands.flatMap bandBoxes

/-- Bands one below the other, none of them empty. -/
structure Banded (bands : List Band) : Prop where
  normal : Run.Normal bands
  rows : ∀ band ∈ bands, band.label ≠ [] ∧ Run.Normal band.label

/-- The pixels that the boxes cover. -/
def Covered (boxes : List Box) (x y : Int) : Prop := ∃ box ∈ boxes, box.inBox x y = true

/-! ## Pixels of bands -/

theorem in_box_iff (box : Box) (x y : Int) :
    box.inBox x y = true ↔ (box.x1 ≤ x ∧ x < box.x2) ∧ box.y1 ≤ y ∧ y < box.y2 := by
  simp only [Box.inBox, gt_iff_lt, Bool.and_eq_true, decide_eq_true_eq]
  omega

@[simp] theorem covered_nil (x y : Int) : ¬Covered [] x y := by simp [Covered]

@[simp] theorem covered_append (front back : List Box) (x y : Int) :
    Covered (front ++ back) x y ↔ Covered front x y ∨ Covered back x y := by
  simp [Covered, or_and_right, exists_or]

@[simp] theorem covered_row (spans : List (Run Int Unit)) (y1 y2 x y : Int) :
    Covered (row spans y1 y2) x y ↔ (y1 ≤ y ∧ y < y2) ∧ Run.At spans x () := by
  simp only [Covered, row, List.mem_map, exists_exists_and_eq_and, in_box_iff, Run.At]
  constructor
  · rintro ⟨span, member, across, down⟩
    exact ⟨down, span, member, across.1, across.2, trivial⟩
  · rintro ⟨down, span, member, lower, upper, -⟩
    exact ⟨span, member, ⟨lower, upper⟩, down⟩

@[simp] theorem bands_boxes_nil : bandsBoxes [] = [] := rfl

@[simp] theorem bands_boxes_cons (band : Band) (bands : List Band) :
    bandsBoxes (band :: bands) = bandBoxes band ++ bandsBoxes bands := List.flatMap_cons

@[simp] theorem bands_boxes_append (front back : List Band) :
    bandsBoxes (front ++ back) = bandsBoxes front ++ bandsBoxes back := List.flatMap_append

@[simp] theorem covered_band_boxes (band : Band) (x y : Int) :
    Covered (bandBoxes band) x y ↔ (band.low ≤ y ∧ y < band.high) ∧ Run.At band.label x () :=
  covered_row ..

theorem covered_bands_boxes (bands : List Band) (x y : Int) :
    Covered (bandsBoxes bands) x y ↔
      ∃ band ∈ bands, (band.low ≤ y ∧ y < band.high) ∧ Run.At band.label x () := by
  induction bands with
  | nil => simp
  | cons band bands ih => simp [ih]

/-! ## Banded lists -/

theorem banded_nil : Banded [] := ⟨Run.normal_nil, by simp⟩

theorem banded_cons {band : Band} {bands : List Band} :
    Banded (band :: bands) ↔ (band.low < band.high ∧ band.label ≠ [] ∧ Run.Normal band.label) ∧
      (∀ next ∈ bands.head?, band.Before next) ∧ Banded bands := by
  constructor
  · intro banded
    have parts := Run.normal_cons.mp banded.normal
    have own := banded.rows band (List.mem_cons_self ..)
    exact ⟨⟨parts.1, own⟩, parts.2.1, parts.2.2,
      fun later member => banded.rows later (List.mem_cons_of_mem _ member)⟩
  · rintro ⟨own, before, rest⟩
    constructor
    · exact Run.normal_cons.mpr ⟨own.1, before, rest.normal⟩
    · intro later member
      rcases List.mem_cons.mp member with rfl | member
      · exact own.2
      · exact rest.rows later member

theorem banded_append {front back : List Band} (early : Banded front) (late : Banded back)
    (joined : ∀ last ∈ front.getLast?, ∀ next ∈ back.head?, last.Before next) :
    Banded (front ++ back) := by
  constructor
  · exact Run.normal_append.mpr ⟨early.normal, late.normal, joined⟩
  · intro band member
    rcases List.mem_append.mp member with before | after
    · exact early.rows band before
    · exact late.rows band after

theorem banded_push {bands : List Band} {band : Band} (banded : Banded bands)
    (solid : band.low < band.high) (own : band.label ≠ [] ∧ Run.Normal band.label)
    (after : ∀ last ∈ bands.getLast?, last.high ≤ band.low) : Banded (Run.push bands band) := by
  constructor
  · exact Run.normal_push banded.normal solid after
  · intro member_band member
    rcases List.eq_nil_or_concat' bands with rfl | ⟨front, last, rfl⟩
    · simp only [Run.push_nil, List.mem_singleton] at member
      exact member ▸ own
    · rw [Run.push_concat] at member
      split at member
      · rcases List.mem_append.mp member with early | grown
        · exact banded.rows member_band (List.mem_append_left _ early)
        · simp only [List.mem_singleton] at grown
          have lastRows := banded.rows last (by simp)
          simpa [grown] using lastRows
      · rcases List.mem_append.mp member with early | added
        · exact banded.rows member_band early
        · simp only [List.mem_singleton] at added
          exact added ▸ own

theorem covered_push {bands : List Band} {band : Band} (banded : Banded bands)
    (solid : band.low < band.high) (x y : Int) :
    Covered (bandsBoxes (Run.push bands band)) x y ↔
      Covered (bandsBoxes bands) x y ∨ Covered (bandBoxes band) x y := by
  have same := Run.at_push banded.normal solid y
  simp only [Run.At] at same
  rw [covered_bands_boxes, covered_bands_boxes, covered_band_boxes]
  constructor
  · rintro ⟨found, member, down, across⟩
    rcases (same found.label).mp ⟨found, member, down.1, down.2, rfl⟩ with
      ⟨early, early_member, lower, upper, label⟩ | ⟨lower, upper, label⟩
    · exact .inl ⟨early, early_member, ⟨lower, upper⟩, label ▸ across⟩
    · exact .inr ⟨⟨lower, upper⟩, label ▸ across⟩
  · intro found
    have pushed : ∃ run ∈ Run.push bands band,
        run.low ≤ y ∧ y < run.high ∧ Run.At run.label x () := by
      rcases found with ⟨early, member, down, across⟩ | ⟨down, across⟩
      · obtain ⟨run, run_member, lower, upper, label⟩ :=
          (same early.label).mpr (.inl ⟨early, member, down.1, down.2, rfl⟩)
        exact ⟨run, run_member, lower, upper, label ▸ across⟩
      · obtain ⟨run, run_member, lower, upper, label⟩ :=
          (same band.label).mpr (.inr ⟨down.1, down.2, rfl⟩)
        exact ⟨run, run_member, lower, upper, label ▸ across⟩
    rcases pushed with ⟨run, member, lower, upper, across⟩
    exact ⟨run, member, ⟨lower, upper⟩, across⟩

/-- Above the first band nothing is covered. -/
theorem covered_low {band : Band} {bands : List Band} (banded : Banded (band :: bands))
    {x y : Int} (covered : Covered (bandsBoxes (band :: bands)) x y) : band.low ≤ y := by
  obtain ⟨found, member, down, across⟩ := (covered_bands_boxes _ x y).mp covered
  exact Run.normal_at_low banded.normal ⟨found, member, down.1, down.2, rfl⟩

theorem covered_rest {band : Band} {bands : List Band} {x y : Int} (below : band.high ≤ y) :
    Covered (bandsBoxes bands) x y ↔ Covered (bandsBoxes (band :: bands)) x y := by
  rw [bands_boxes_cons, covered_append, covered_band_boxes]
  constructor
  · exact .inr
  · rintro (here | there)
    · omega
    · exact there

theorem covered_rest_low {band : Band} {bands : List Band} (banded : Banded (band :: bands))
    {x y : Int} (covered : Covered (bandsBoxes bands) x y) : band.high ≤ y := by
  obtain ⟨found, member, down, -⟩ := (covered_bands_boxes _ x y).mp covered
  exact (Run.normal_later banded.normal member).trans down.1

/-- In the first band only its own boxes count. -/
theorem covered_first {band : Band} {bands : List Band} (banded : Banded (band :: bands))
    {x y : Int} (above : y < band.high) :
    Covered (bandsBoxes (band :: bands)) x y ↔ band.low ≤ y ∧ Run.At band.label x () := by
  rw [bands_boxes_cons, covered_append, covered_band_boxes]
  constructor
  · rintro (here | there)
    · exact ⟨here.1.1, here.2⟩
    · obtain ⟨found, member, down, across⟩ := (covered_bands_boxes _ x y).mp there
      have later := Run.normal_later banded.normal member
      omega
  · intro found
    exact .inl ⟨⟨found.1, above⟩, found.2⟩

/-- The first box of a band that is there. -/
theorem band_boxes_head {band : Band} (some_span : band.label ≠ []) :
    ∃ box rest, bandBoxes band = box :: rest ∧ box.y1 = band.low ∧ box.y2 = band.high ∧
      ∀ next ∈ rest, next.y1 = band.low := by
  cases spans : band.label with
  | nil => exact absurd spans some_span
  | cons span rest =>
      refine ⟨_, row rest band.low band.high, by rw [bandBoxes, spans]; rfl, rfl, rfl, ?_⟩
      intro next member
      obtain ⟨other, -, same⟩ := List.mem_map.mp member
      rw [← same]

theorem bands_boxes_head_low {bands : List Band} (banded : Banded bands) :
    ∀ box ∈ (bandsBoxes bands).head?, ∃ band ∈ bands.head?, box.y1 = band.low := by
  intro box first
  cases bands with
  | nil => simp at first
  | cons band bands =>
      obtain ⟨head, rest, boxes, low, -, -⟩ := band_boxes_head (banded_cons.mp banded).1.2.1
      simp only [bands_boxes_cons, boxes, List.cons_append, List.head?_cons,
        Option.mem_some_iff] at first
      exact ⟨band, rfl, by rw [← first, low]⟩

theorem find_band_boxes {band : Band} {bands : List Band} (banded : Banded (band :: bands)) :
    findBand (bandsBoxes (band :: bands)) = (bandBoxes band, bandsBoxes bands) := by
  have parts := banded_cons.mp banded
  obtain ⟨box, rest, boxes, low, -, same⟩ := band_boxes_head parts.1.2.1
  have other : ∀ next ∈ (bandsBoxes bands).head?, ¬next.y1 = box.y1 := by
    intro next first
    obtain ⟨nextBand, second, nextLow⟩ := bands_boxes_head_low parts.2.2 next first
    have before := (parts.2.1 nextBand second).1
    have solid := parts.1.1
    omega
  have all : ∀ next ∈ rest, decide (next.y1 = box.y1) = true := by
    intro next member
    rw [low]
    exact decide_eq_true (same next member)
  rw [bands_boxes_cons, boxes, List.cons_append, findBand,
    List.takeWhile_append_of_pos all, List.dropWhile_append_of_pos all]
  cases later : bandsBoxes bands with
  | nil => simp
  | cons next others =>
      have differs := other next (by rw [later]; rfl)
      rw [List.takeWhile_cons_of_neg (by simpa using differs),
        List.dropWhile_cons_of_neg (by simpa using differs), List.append_nil]

/-! ## The destination -/

/-- Where `prev_band` points: at the last band, or behind it when nothing touches it. -/
def PrevBand (prevBand : Nat) (bands : List Band) (limit : Int) : Prop :=
  (∃ front last, bands = front ++ [last] ∧ prevBand = (bandsBoxes front).length) ∨
    prevBand = (bandsBoxes bands).length ∧ ∀ last ∈ bands.getLast?, last.high < limit

/-- The destination down to `limit`. -/
def Output (region : NewRegion) (limit : Int) (wanted : Int → Int → Prop) : Prop :=
  ∃ bands, Banded bands ∧ region.rects = bandsBoxes bands ∧
    (∀ last ∈ bands.getLast?, last.high ≤ limit) ∧ PrevBand region.prevBand bands limit ∧
    ∀ x y, Covered region.rects x y ↔ wanted x y

theorem output_congr {region : NewRegion} {limit : Int} {wanted other : Int → Int → Prop}
    (output : Output region limit wanted) (same : ∀ x y, wanted x y ↔ other x y) :
    Output region limit other := by
  rcases output with ⟨bands, banded, boxes, last, prev, meaning⟩
  exact ⟨bands, banded, boxes, last, prev, fun x y => (meaning x y).trans (same x y)⟩

theorem output_later {region : NewRegion} {limit later : Int} {wanted : Int → Int → Prop}
    (output : Output region limit wanted) (grows : limit ≤ later) :
    Output region later wanted := by
  rcases output with ⟨bands, banded, boxes, last, prev, meaning⟩
  refine ⟨bands, banded, boxes, fun band member => (last band member).trans grows, ?_, meaning⟩
  rcases prev with there | ⟨behind, gap⟩
  · exact .inl there
  · exact .inr ⟨behind, fun band member => (gap band member).trans_le grows⟩

theorem output_start {limit : Int} {wanted : Int → Int → Prop} (none_wanted : ∀ x y, ¬wanted x y) :
    Output { rects := [], prevBand := 0 } limit wanted := by
  refine ⟨[], banded_nil, rfl, by simp, .inr ⟨rfl, by simp⟩, ?_⟩
  intro x y
  exact iff_of_false (covered_nil x y) (none_wanted x y)

@[simp] theorem length_row (spans : List (Run Int Unit)) (y1 y2 : Int) :
    (row spans y1 y2).length = spans.length := List.length_map ..

theorem same_columns_row (spans others : List (Run Int Unit)) (y1 y2 y3 y4 : Int) :
    sameColumns (row spans y1 y2) (row others y3 y4) = true ↔ spans = others := by
  rw [sameColumns, Bool.and_eq_true, beq_iff_eq, beq_iff_eq]
  induction spans generalizing others with
  | nil => cases others <;> simp [row]
  | cons span spans ih =>
      cases others with
      | nil => simp [row]
      | cons other others =>
          have rest := ih others
          simp only [row, List.map_cons, List.cons.injEq] at rest ⊢
          rw [← rest]
          cases span
          cases other
          simp
          tauto

/-- The two bands that `pixman_coalesce` compares. -/
theorem coalesce_bands_compared (front last band : List Box) (same : last.length = band.length) :
    ((front ++ last ++ band).drop front.length).take last.length = last ∧
      ((front ++ last ++ band).drop (front ++ last).length).take last.length = band := by
  constructor
  · simp
  · rw [List.drop_left, same, List.take_length]

theorem coalesce_band {front : List Band} {last band : Band} (some_last : last.label ≠ [])
    (some_span : band.label ≠ []) :
    coalesce (bandsBoxes (front ++ [last]) ++ bandBoxes band) (bandsBoxes front).length
        (bandsBoxes (front ++ [last])).length =
      if last.high = band.low ∧ last.label = band.label then
        { rects := bandsBoxes (front ++ [{ last with high := band.high }])
          prevBand := (bandsBoxes front).length }
      else
        { rects := bandsBoxes (front ++ [last] ++ [band])
          prevBand := (bandsBoxes (front ++ [last])).length } := by
  obtain ⟨lastBox, lastRest, lastBoxes, -, lastHigh, -⟩ := band_boxes_head some_last
  obtain ⟨box, rest, boxes, low, high, -⟩ := band_boxes_head some_span
  have split_boxes : bandsBoxes (front ++ [last]) = bandsBoxes front ++ bandBoxes last := by simp
  have plain : bandsBoxes (front ++ [last] ++ [band]) =
      bandsBoxes front ++ bandBoxes last ++ bandBoxes band := by simp
  have counts : (bandBoxes last).length = (bandBoxes band).length ↔
      last.label.length = band.label.length := by simp [bandBoxes]
  rw [coalesce, plain, split_boxes]
  simp only [List.length_append, Nat.add_sub_cancel_left]
  split
  · next same =>
      have compared := coalesce_bands_compared (bandsBoxes front) _ _ same
      rw [List.length_append] at compared
      rw [pixmanCoalesce]
      simp only [Nat.add_sub_cancel_left]
      rw [compared.1, compared.2]
      have columns_iff := same_columns_row last.label band.label last.low last.high band.low band.high
      have grown : (bandBoxes last).map (fun each => { each with y2 := box.y2 }) =
          bandBoxes { last with high := band.high } := by
        rw [bandBoxes, row, List.map_map, high]
        rfl
      rw [← bandBoxes, ← bandBoxes] at columns_iff
      rw [lastBoxes] at columns_iff grown ⊢
      rw [boxes] at columns_iff ⊢
      simp only [lastHigh, low]
      by_cases touch : last.high = band.low
      · by_cases alike : last.label = band.label
        · rw [if_neg (not_not.mpr touch), if_pos (columns_iff.mpr alike), if_pos ⟨touch, alike⟩,
            grown]
          simp
        · rw [if_neg (not_not.mpr touch), if_neg (fun found => alike (columns_iff.mp found)),
            if_neg (fun found => alike found.2)]
      · rw [if_pos touch, if_neg (fun found => touch found.1)]
  · next differ =>
      rw [counts] at differ
      rw [if_neg]
      rintro ⟨-, same⟩
      exact differ (by rw [same])

theorem add_band_push {region : NewRegion} {limit : Int} {bands : List Band} {band : Band}
    (banded : Banded bands) (rects : region.rects = bandsBoxes bands)
    (prev : PrevBand region.prevBand bands limit) (some_span : band.label ≠ [])
    (after : limit ≤ band.low) (later : Int) :
    (addBand region (bandBoxes band)).rects = bandsBoxes (Run.push bands band) ∧
      PrevBand (addBand region (bandBoxes band)).prevBand (Run.push bands band) later := by
  rw [addBand, rects]
  rcases prev with ⟨front, last, rfl, at_last⟩ | ⟨behind, gap⟩
  · have some_last := (banded.rows last (by simp)).1
    rw [at_last, coalesce_band some_last some_span, Run.push_concat]
    split
    · exact ⟨rfl, .inl ⟨front, _, rfl, rfl⟩⟩
    · exact ⟨rfl, .inl ⟨front ++ [last], band, rfl, rfl⟩⟩
  · have filled : (bandBoxes band).length ≠ 0 := by
      rw [bandBoxes, length_row]
      exact fun none => some_span (List.eq_nil_of_length_eq_zero none)
    rw [behind, coalesce, List.length_append, Nat.sub_self, Nat.add_sub_cancel_left,
      if_neg (Ne.symm filled),
      Run.push_apart fun last member => (gap last member).trans_le after]
    refine ⟨?_, .inl ⟨bands, band, rfl, rfl⟩⟩
    simp

/-- A band more in the destination. -/
theorem add_row_output {region : NewRegion} {limit : Int} {wanted : Int → Int → Prop}
    {band : Band} (output : Output region limit wanted) (after : limit ≤ band.low)
    (solid : band.low < band.high) (own : band.label ≠ [] ∧ Run.Normal band.label) :
    Output (addBand region (bandBoxes band)) band.high
      fun x y => wanted x y ∨ Covered (bandBoxes band) x y := by
  rcases output with ⟨bands, banded, rects, last_above, prev, meaning⟩
  have above : ∀ last ∈ bands.getLast?, last.high ≤ band.low := by
    intro last member
    exact (last_above last member).trans after
  have added := add_band_push banded rects prev own.1 after band.high
  refine ⟨Run.push bands band, banded_push banded solid own above, added.1, ?_, added.2, ?_⟩
  · intro last member
    obtain ⟨grown, found, high, -⟩ := Run.push_last bands band
    rw [found, Option.mem_some_iff] at member
    rw [← member, high]
  · intro x y
    rw [added.1, covered_push banded solid, ← rects, meaning]

/-- A row without boxes, behind which the next band starts anew. -/
theorem add_nothing_output {region : NewRegion} {limit later : Int} {wanted : Int → Int → Prop}
    (output : Output region limit wanted) (grows : limit < later) :
    Output (addBand region []) later wanted := by
  rcases output with ⟨bands, banded, rects, last_above, prev, meaning⟩
  have added : addBand region [] =
      { rects := region.rects, prevBand := region.rects.length } := by
    rw [addBand, coalesce, List.append_nil, Nat.sub_self]
    split
    · next same => simp [pixmanCoalesce, same]
    · rfl
  rw [added]
  refine ⟨bands, banded, rects, ?_, .inr ⟨by rw [rects], ?_⟩, meaning⟩
  · intro last member
    exact (last_above last member).trans grows.le
  · intro last member
    exact (last_above last member).trans_lt grows

theorem add_band_output {region : NewRegion} {limit top bot : Int} {wanted : Int → Int → Prop}
    {boxes : List Box} {inRow : Int → Prop} (output : Output region limit wanted)
    (isRow : IsRow boxes top bot inRow) (after : limit ≤ top) (solid : top < bot) :
    Output (addBand region boxes) bot fun x y => wanted x y ∨ (top ≤ y ∧ y < bot) ∧ inRow x := by
  rcases isRow with ⟨sides, apart, inRow_iff⟩
  have same_boxes := is_row_boxes sides
  cases spans : columns boxes with
  | nil =>
      have no_boxes : boxes = [] := by rw [same_boxes, spans]; rfl
      have nothing : ∀ x, ¬inRow x := by
        intro x found
        rw [← inRow_iff, no_boxes] at found
        exact in_columns_nil x found
      rw [no_boxes]
      apply output_congr (add_nothing_output output (after.trans_lt solid))
      intro x y
      simp [nothing]
  | cons span rest =>
      let band : Band := { low := top, high := bot, label := columns boxes }
      have own : band.label ≠ [] ∧ Run.Normal band.label := ⟨by simp [band, spans], apart⟩
      have is_band : boxes = bandBoxes band := same_boxes
      have added := @add_row_output region limit wanted band output after solid own
      rw [← is_band] at added
      apply output_congr added
      intro x y
      rw [is_band, covered_band_boxes, ← inRow_iff]
      rfl

end XrdpConsole.PixmanRegion
