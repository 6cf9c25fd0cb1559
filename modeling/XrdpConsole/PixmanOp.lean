import XrdpConsole.PixmanBands

/-!
# The generic region operator

`pixman_op` computes any operation on sets of pixels of which an overlap function computes it for
two bands, and of which the two flags say what becomes of the pixels of one source only. The loop
goes down both sources at once; above `ybot` the destination is complete, and below it the sources
have everything that is left.
-/

namespace XrdpConsole.PixmanRegion

open XrdpConsole.Library

set_option autoImplicit false

/-- `op` says which pixels the result has, from whether the sources have them. -/
structure Operates (overlapFunc : OverlapProc) (appendNon1 appendNon2 : Bool)
    (op : Prop → Prop → Prop) : Prop where
  overlap : ∀ (r1 r2 : List Box) (y1 y2 : Int), Apart r1 → Apart r2 → r1 ≠ [] → r2 ≠ [] →
    IsRow (overlapFunc r1 r2 y1 y2) y1 y2 fun x => op (InColumns r1 x) (InColumns r2 x)
  first : ∀ p, op p False ↔ appendNon1 = true ∧ p
  second : ∀ p, op False p ↔ appendNon2 = true ∧ p

theorem operates_intersect : Operates intersectO false false And where
  overlap _ _ y1 y2 apart1 apart2 _ _ := intersect_o_row apart1 apart2 y1 y2
  first p := by simp
  second p := by simp

theorem operates_union : Operates unionO true true Or where
  overlap _ _ y1 y2 apart1 apart2 some1 some2 := union_o_row apart1 apart2 some1 some2 y1 y2
  first p := by simp
  second p := by simp

theorem operates_subtract : Operates subtractO true false fun p q => p ∧ ¬q where
  overlap _ _ y1 y2 apart1 apart2 _ _ := subtract_o_row apart1 apart2 y1 y2
  first p := by simp
  second p := by simp

theorem operates_nothing {overlapFunc : OverlapProc} {appendNon1 appendNon2 : Bool}
    {op : Prop → Prop → Prop} (operates : Operates overlapFunc appendNon1 appendNon2 op)
    {p q : Prop} (no_first : ¬p) (no_second : ¬q) : ¬op p q := by
  rw [eq_false no_first, eq_false no_second, operates.first]
  exact fun found => found.2

/-! ## The sources -/

/-- What a source has from `ybot` down: the pixels of `pixels` there. -/
def Source (boxes : List Box) (ybot : Int) (pixels : Int → Int → Prop) : Prop :=
  ∃ bands, Banded bands ∧ boxes = bandsBoxes bands ∧
    (∀ band ∈ bands.head?, ybot < band.high) ∧
    ∀ x y, ybot ≤ y → (Covered boxes x y ↔ pixels x y)

/-- No band of the source is half done. -/
def Fresh (boxes : List Box) (ybot : Int) : Prop := ∀ box ∈ boxes.head?, ybot ≤ box.y1

theorem source_congr {boxes : List Box} {ybot : Int} {pixels : Int → Int → Prop}
    (source : Source boxes ybot pixels) (x y : Int) (below : ybot ≤ y) :
    Covered boxes x y ↔ pixels x y := by
  rcases source with ⟨bands, -, -, -, meaning⟩
  exact meaning x y below

/-- A source with something left, and its first band. -/
structure FirstBand (boxes : List Box) (ybot : Int) (pixels : Int → Int → Prop) (box : Box)
    (band : Band) (rest : List Band) : Prop where
  banded : Banded (band :: rest)
  boxes_eq : boxes = bandsBoxes (band :: rest)
  low : box.y1 = band.low
  high : box.y2 = band.high
  reaches : ybot < band.high
  meaning : ∀ x y, ybot ≤ y → (Covered boxes x y ↔ pixels x y)

theorem source_first {box : Box} {others : List Box} {ybot : Int} {pixels : Int → Int → Prop}
    (source : Source (box :: others) ybot pixels) :
    ∃ band rest, FirstBand (box :: others) ybot pixels box band rest := by
  rcases source with ⟨bands, banded, boxes, reaches, meaning⟩
  cases bands with
  | nil => simp at boxes
  | cons band rest =>
      obtain ⟨head, tail, band_boxes, low, high, -⟩ :=
        band_boxes_head (banded_cons.mp banded).1.2.1
      have same : box = head := by
        rw [bands_boxes_cons, band_boxes, List.cons_append, List.cons.injEq] at boxes
        exact boxes.1
      exact ⟨band, rest, banded, boxes, same ▸ low, same ▸ high, reaches band rfl, meaning⟩

section FirstBand

variable {boxes : List Box} {ybot : Int} {pixels : Int → Int → Prop} {box : Box} {band : Band}
  {rest : List Band}

theorem first_find (first : FirstBand boxes ybot pixels box band rest) :
    findBand boxes = (bandBoxes band, bandsBoxes rest) := by
  rw [first.boxes_eq]
  exact find_band_boxes first.banded

theorem first_pixels (first : FirstBand boxes ybot pixels box band rest) {x y : Int}
    (below : ybot ≤ y) (above : y < band.high) :
    pixels x y ↔ band.low ≤ y ∧ InColumns (bandBoxes band) x := by
  rw [← first.meaning x y below, first.boxes_eq, covered_first first.banded above, InColumns,
    bandBoxes, columns_row]

theorem first_no_pixels (first : FirstBand boxes ybot pixels box band rest) {x y : Int}
    (below : ybot ≤ y) (above : y < band.low) : ¬pixels x y := by
  rw [← first.meaning x y below, first.boxes_eq]
  intro covered
  have low := covered_low first.banded covered
  omega

theorem first_row (first : FirstBand boxes ybot pixels box band rest) :
    Apart (bandBoxes band) ∧ bandBoxes band ≠ [] := by
  have own := (banded_cons.mp first.banded).1.2
  constructor
  · rw [Apart, bandBoxes, columns_row]
    exact own.2
  · obtain ⟨head, tail, band_boxes, -⟩ := band_boxes_head own.1
    rw [band_boxes]
    exact List.cons_ne_nil head tail

/-- A source below the end of its first band, or of a part of it. -/
theorem first_source_later (first : FirstBand boxes ybot pixels box band rest) {later : Int}
    (grows : ybot ≤ later) (within : later ≤ band.high) :
    Source (if band.high = later then bandsBoxes rest else boxes) later pixels := by
  split
  · next ended =>
      refine ⟨rest, (banded_cons.mp first.banded).2.2, rfl, ?_, ?_⟩
      · intro next second
        have before := (banded_cons.mp first.banded).2.1 next second
        have solid := first.banded.normal.solid next
          (List.mem_cons_of_mem _ (List.mem_of_mem_head? second))
        have touch := before.1
        omega
      · intro x y below
        rw [covered_rest (ended ▸ below), ← first.boxes_eq]
        exact first.meaning x y (grows.trans below)
  · next within_band =>
      refine ⟨band :: rest, first.banded, first.boxes_eq, ?_, ?_⟩
      · intro head found
        simp only [List.head?_cons, Option.mem_some_iff] at found
        subst found
        omega
      · intro x y below
        exact first.meaning x y (grows.trans below)

theorem first_fresh_later (first : FirstBand boxes ybot pixels box band rest) :
    Fresh (bandsBoxes rest) band.high := by
  intro next found
  obtain ⟨second, head, low⟩ := bands_boxes_head_low (banded_cons.mp first.banded).2.2 next found
  have before := ((banded_cons.mp first.banded).2.1 second head).1
  omega

theorem first_rest_fewer (first : FirstBand boxes ybot pixels box band rest) :
    (bandsBoxes rest).length < boxes.length := by
  have filled := List.length_pos_iff.mpr (first_row first).2
  rw [first.boxes_eq, bands_boxes_cons, List.length_append]
  omega

end FirstBand

/-! ## One turn of the loop -/

structure Sweep (op : Prop → Prop → Prop) (pixels1 pixels2 : Int → Int → Prop) (s : OpState) :
    Prop where
  source1 : Source s.r1 s.ybot pixels1
  source2 : Source s.r2 s.ybot pixels2
  fresh : Fresh s.r1 s.ybot ∨ Fresh s.r2 s.ybot
  output : Output s.region s.ybot fun x y => y < s.ybot ∧ op (pixels1 x y) (pixels2 x y)

section Turn

variable {overlapFunc : OverlapProc} {appendNon1 appendNon2 : Bool} {op : Prop → Prop → Prop}
  {pixels1 pixels2 : Int → Int → Prop}

/-- The destination grows by a strip in which `extra` are the pixels of the result. -/
theorem output_grows {region : NewRegion} {ybot later : Int} {wanted extra : Int → Int → Prop}
    (output : Output region later
      fun x y => (y < ybot ∧ wanted x y) ∨ (ybot ≤ y ∧ y < later) ∧ extra x y)
    (grows : ybot ≤ later)
    (same : ∀ x y, ybot ≤ y → y < later → (wanted x y ↔ extra x y)) :
    Output region later fun x y => y < later ∧ wanted x y := by
  apply output_congr output
  intro x y
  rcases lt_or_ge y ybot with above | below
  · have inside : y < later := by omega
    simp [above, inside, not_le.mpr above]
  · by_cases inside : y < later
    · simp [inside, below, not_lt.mpr below, same x y below inside]
    · simp [inside, not_lt.mpr below]

theorem append_alone_output {region : NewRegion} {ybot other : Int} {boxes : List Box}
    {wanted pixels : Int → Int → Prop} {box : Box} {band : Band} {rest : List Band}
    (first : FirstBand boxes ybot pixels box band rest) (append : Bool)
    (output : Output region ybot wanted) (before : box.y1 < other) (reached : ybot ≤ other) :
    Output (appendAlone append region (bandBoxes band) box.y1 box.y2 other ybot)
      (min box.y2 other)
      fun x y => wanted x y ∨
        (ybot ≤ y ∧ y < min box.y2 other) ∧ append = true ∧ pixels x y := by
  have low := first.low
  have high := first.high
  have reaches := first.reaches
  have solid := (banded_cons.mp first.banded).1.1
  have in_strip : ∀ x y, ybot ≤ y → y < min box.y2 other →
      (pixels x y ↔ box.y1 ≤ y ∧ InColumns (bandBoxes band) x) := by
    intro x y below above
    rw [low]
    exact first_pixels first below (by omega)
  rw [appendAlone]
  split
  · next appends =>
      simp only
      split
      · next some_strip =>
          have strip := append_non_o_row (first_row first).1 (max box.y1 ybot) (min box.y2 other)
          apply output_congr (add_band_output output strip (by omega) (by omega))
          intro x y
          apply or_congr_right
          constructor
          · rintro ⟨⟨lower, upper⟩, across⟩
            have below : ybot ≤ y := by omega
            exact ⟨⟨below, upper⟩, appends, (in_strip x y below upper).mpr ⟨by omega, across⟩⟩
          · rintro ⟨⟨below, upper⟩, -, found⟩
            have across := (in_strip x y below upper).mp found
            exact ⟨⟨by omega, upper⟩, across.2⟩
      · next no_strip =>
          apply output_congr (output_later output (by omega))
          intro x y
          constructor
          · exact .inl
          · rintro (found | ⟨⟨below, upper⟩, -⟩)
            · exact found
            · omega
  · apply output_congr (output_later output (by omega))
    intro x y
    simp_all

/-- What the loop adds for the part of a band that only one source has. -/
theorem alone_output (operates : Operates overlapFunc appendNon1 appendNon2 op) {s : OpState}
    {box1 box2 : Box} {band1 band2 : Band} {rest1 rest2 : List Band}
    (first1 : FirstBand s.r1 s.ybot pixels1 box1 band1 rest1)
    (first2 : FirstBand s.r2 s.ybot pixels2 box2 band2 rest2)
    (fresh : s.ybot ≤ box1.y1 ∨ s.ybot ≤ box2.y1)
    (output : Output s.region s.ybot fun x y => y < s.ybot ∧ op (pixels1 x y) (pixels2 x y)) :
    let later := min (min box1.y2 box2.y2) (max box1.y1 box2.y1)
    Output (aloneBands appendNon1 appendNon2 s.region (bandBoxes band1) (bandBoxes band2) box1 box2
        s.ybot)
      later fun x y => y < later ∧ op (pixels1 x y) (pixels2 x y) := by
  intro later
  have solid1 : box1.y1 < box1.y2 := by
    rw [first1.low, first1.high]
    exact (banded_cons.mp first1.banded).1.1
  have solid2 : box2.y1 < box2.y2 := by
    rw [first2.low, first2.high]
    exact (banded_cons.mp first2.banded).1.1
  have reaches1 : s.ybot < box1.y2 := by rw [first1.high]; exact first1.reaches
  have reaches2 : s.ybot < box2.y2 := by rw [first2.high]; exact first2.reaches
  have above1 : ∀ x y, s.ybot ≤ y → y < box1.y1 → ¬pixels1 x y := fun x y below above =>
    first_no_pixels first1 below (first1.low ▸ above)
  have above2 : ∀ x y, s.ybot ≤ y → y < box2.y1 → ¬pixels2 x y := fun x y below above =>
    first_no_pixels first2 below (first2.low ▸ above)
  rw [aloneBands]
  split
  · next less =>
      have strip : later = min box1.y2 box2.y1 := by omega
      rw [strip]
      apply output_grows (append_alone_output first1 appendNon1 output less (by omega)) (by omega)
      intro x y below above
      rw [eq_false (above2 x y below (by omega)), operates.first]
  · next notLess =>
      split
      · next less =>
          have strip : later = min box2.y2 box1.y1 := by omega
          rw [strip]
          apply output_grows (append_alone_output first2 appendNon2 output less (by omega))
            (by omega)
          intro x y below above
          rw [eq_false (above1 x y below (by omega)), operates.second]
      · next neither =>
          have strip : later = box1.y1 := by omega
          have same : box2.y1 = box1.y1 := by omega
          rw [strip]
          apply output_congr (output_later output (by omega))
          intro x y
          constructor
          · intro found
            exact ⟨by omega, found.2⟩
          · rintro ⟨above, found⟩
            refine ⟨?_, found⟩
            by_contra below
            rw [not_lt] at below
            exact operates_nothing operates (above1 x y below above)
              (above2 x y below (same ▸ above)) found

/-- What the loop adds for the part of a band that both sources have. -/
theorem overlap_output (operates : Operates overlapFunc appendNon1 appendNon2 op) {s : OpState}
    {box1 box2 : Box} {band1 band2 : Band} {rest1 rest2 : List Band} {region : NewRegion}
    (first1 : FirstBand s.r1 s.ybot pixels1 box1 band1 rest1)
    (first2 : FirstBand s.r2 s.ybot pixels2 box2 band2 rest2)
    {ytop ybot : Int} (top_eq : ytop = max box1.y1 box2.y1) (bot_eq : ybot = min box1.y2 box2.y2)
    (reached : s.ybot ≤ ytop)
    (output : Output region (min ybot ytop)
      fun x y => y < min ybot ytop ∧ op (pixels1 x y) (pixels2 x y)) :
    Output (overlapBands overlapFunc region (bandBoxes band1) (bandBoxes band2) ytop ybot) ybot
      fun x y => y < ybot ∧ op (pixels1 x y) (pixels2 x y) := by
  have low1 := first1.low
  have low2 := first2.low
  have high1 := first1.high
  have high2 := first2.high
  rw [overlapBands]
  split
  · next both =>
      rw [min_eq_right both.le] at output
      have row1 := first_row first1
      have row2 := first_row first2
      have strip := operates.overlap (bandBoxes band1) (bandBoxes band2) ytop ybot
        row1.1 row2.1 row1.2 row2.2
      apply output_grows (add_band_output output strip le_rfl both) both.le
      intro x y below above
      rw [first_pixels first1 (reached.trans below) (by omega),
        first_pixels first2 (reached.trans below) (by omega)]
      have reached1 : band1.low ≤ y := by omega
      have reached2 : band2.low ≤ y := by omega
      simp only [reached1, reached2, true_and]
  · next neither =>
      rw [min_eq_left (not_lt.mp neither)] at output
      exact output

theorem op_step_first {s : OpState} {box1 box2 : Box} {band1 band2 : Band}
    {rest1 rest2 : List Band} {others1 others2 : List Box}
    (boxes1 : s.r1 = box1 :: others1) (boxes2 : s.r2 = box2 :: others2)
    (first1 : FirstBand s.r1 s.ybot pixels1 box1 band1 rest1)
    (first2 : FirstBand s.r2 s.ybot pixels2 box2 band2 rest2) :
    opStep overlapFunc appendNon1 appendNon2 s = {
      r1 := if box1.y2 = min box1.y2 box2.y2 then bandsBoxes rest1 else s.r1
      r2 := if box2.y2 = min box1.y2 box2.y2 then bandsBoxes rest2 else s.r2
      region := overlapBands overlapFunc
        (aloneBands appendNon1 appendNon2 s.region (bandBoxes band1) (bandBoxes band2) box1 box2
          s.ybot)
        (bandBoxes band1) (bandBoxes band2) (max box1.y1 box2.y1) (min box1.y2 box2.y2)
      ybot := min box1.y2 box2.y2 } := by
  have find1 := first_find first1
  have find2 := first_find first2
  rw [boxes1] at find1
  rw [boxes2] at find2
  simp only [opStep, boxes1, boxes2, find1, find2]

theorem op_step_sweep (operates : Operates overlapFunc appendNon1 appendNon2 op) {s : OpState}
    (sweep : Sweep op pixels1 pixels2 s) (some1 : s.r1 ≠ []) (some2 : s.r2 ≠ []) :
    Sweep op pixels1 pixels2 (opStep overlapFunc appendNon1 appendNon2 s) ∧
      (opStep overlapFunc appendNon1 appendNon2 s).r1.length +
        (opStep overlapFunc appendNon1 appendNon2 s).r2.length < s.r1.length + s.r2.length := by
  obtain ⟨box1, others1, boxes1⟩ := List.exists_cons_of_ne_nil some1
  obtain ⟨box2, others2, boxes2⟩ := List.exists_cons_of_ne_nil some2
  obtain ⟨band1, rest1, first1⟩ := source_first (boxes1 ▸ sweep.source1)
  obtain ⟨band2, rest2, first2⟩ := source_first (boxes2 ▸ sweep.source2)
  rw [← boxes1] at first1
  rw [← boxes2] at first2
  have fresh : s.ybot ≤ box1.y1 ∨ s.ybot ≤ box2.y1 := by
    rcases sweep.fresh with fresh1 | fresh2
    · exact .inl (fresh1 box1 (by rw [boxes1]; rfl))
    · exact .inr (fresh2 box2 (by rw [boxes2]; rfl))
  have high1 := first1.high
  have high2 := first2.high
  have reaches1 := first1.reaches
  have reaches2 := first2.reaches
  have alone := alone_output operates first1 first2 fresh sweep.output
  have both := overlap_output operates first1 first2 rfl rfl (by omega) alone
  have later1 := @first_source_later _ _ _ _ _ _ first1 (min box1.y2 box2.y2)
    (by omega) (by omega)
  have later2 := @first_source_later _ _ _ _ _ _ first2 (min box1.y2 box2.y2)
    (by omega) (by omega)
  have fewer1 := first_rest_fewer first1
  have fewer2 := first_rest_fewer first2
  rw [← high1] at later1
  rw [← high2] at later2
  rw [op_step_first boxes1 boxes2 first1 first2]
  constructor
  · refine ⟨later1, later2, ?_, both⟩
    rcases Int.le_total box1.y2 box2.y2 with sooner | later
    · simp only [min_eq_left sooner, if_pos]
      exact .inl (high1 ▸ first_fresh_later first1)
    · simp only [min_eq_right later, if_pos]
      exact .inr (high2 ▸ first_fresh_later first2)
  · simp only
    split <;> split <;> omega

/-! ## The whole run -/

theorem op_loop_sweep (operates : Operates overlapFunc appendNon1 appendNon2 op) (fuel : Nat)
    {s : OpState} (sweep : Sweep op pixels1 pixels2 s) (some1 : s.r1 ≠ []) (some2 : s.r2 ≠ [])
    (enough : s.r1.length + s.r2.length ≤ fuel) :
    let last := opLoop overlapFunc appendNon1 appendNon2 fuel s
    Sweep op pixels1 pixels2 last ∧ (last.r1 = [] ∨ last.r2 = []) := by
  induction fuel generalizing s with
  | zero =>
      have filled := List.length_pos_iff.mpr some1
      omega
  | succ fuel ih =>
      have step := op_step_sweep operates sweep some1 some2
      rw [opLoop]
      simp only
      split
      · next both => exact ih step.1 both.1 both.2 (by omega)
      · next ended =>
          refine ⟨step.1, ?_⟩
          by_contra neither
          exact ended (not_or.mp neither)

theorem start_sweep (operates : Operates overlapFunc appendNon1 appendNon2 op)
    {bands1 bands2 : List Band} (banded1 : Banded bands1) (banded2 : Banded bands2)
    (some1 : bandsBoxes bands1 ≠ []) (some2 : bandsBoxes bands2 ≠ []) :
    Sweep op (Covered (bandsBoxes bands1)) (Covered (bandsBoxes bands2))
      (startOp (bandsBoxes bands1) (bandsBoxes bands2)) := by
  cases bands1 with
  | nil => exact absurd rfl some1
  | cons band1 rest1 =>
      cases bands2 with
      | nil => exact absurd rfl some2
      | cons band2 rest2 =>
          obtain ⟨box1, others1, boxes1, low1, -⟩ := band_boxes_head (banded_cons.mp banded1).1.2.1
          obtain ⟨box2, others2, boxes2, low2, -⟩ := band_boxes_head (banded_cons.mp banded2).1.2.1
          have solid1 := (banded_cons.mp banded1).1.1
          have solid2 := (banded_cons.mp banded2).1.1
          have top : (startOp (bandsBoxes (band1 :: rest1)) (bandsBoxes (band2 :: rest2))).ybot =
              min band1.low band2.low := by
            simp only [startOp, bands_boxes_cons, boxes1, boxes2, List.cons_append, low1, low2]
          constructor
          · rw [top]
            refine ⟨band1 :: rest1, banded1, rfl, ?_, fun x y _ => Iff.rfl⟩
            intro band head
            simp only [List.head?_cons, Option.mem_some_iff] at head
            subst head
            omega
          · rw [top]
            refine ⟨band2 :: rest2, banded2, rfl, ?_, fun x y _ => Iff.rfl⟩
            intro band head
            simp only [List.head?_cons, Option.mem_some_iff] at head
            subst head
            omega
          · rw [top]
            left
            intro box head
            obtain ⟨band, first, low⟩ := bands_boxes_head_low banded1 box head
            simp only [List.head?_cons, Option.mem_some_iff] at first
            subst first
            omega
          · rw [top]
            apply output_start
            rintro x y ⟨above, found⟩
            refine operates_nothing operates ?_ ?_ found
            · intro covered
              have low := covered_low banded1 covered
              omega
            · intro covered
              have low := covered_low banded2 covered
              omega

/-- A destination with a part of a band, and behind it the bands that follow that band. -/
theorem add_rest_banded {region : NewRegion} {ybot : Int} {wanted : Int → Int → Prop}
    {band : Band} {rest : List Band} (banded : Banded (band :: rest))
    (reaches : ybot < band.high) (output : Output region ybot wanted) :
    let part : Band := { band with low := max band.low ybot }
    ∃ bands, Banded bands ∧
      (addBand region (bandBoxes part)).rects ++ bandsBoxes rest = bandsBoxes bands ∧
      ∀ x y, Covered (bandsBoxes bands) x y ↔
        wanted x y ∨ Covered (bandBoxes part) x y ∨ Covered (bandsBoxes rest) x y := by
  intro part
  rcases output with ⟨bands, done, rects, last_above, prev, meaning⟩
  have parts := banded_cons.mp banded
  have after : ybot ≤ part.low := le_max_right ..
  have solid : part.low < part.high := max_lt parts.1.1 reaches
  have added := @add_band_push region ybot bands part done rects prev parts.1.2.1 after part.high
  have above : ∀ last ∈ bands.getLast?, last.high ≤ part.low := by
    intro last member
    exact (last_above last member).trans after
  refine ⟨Run.push bands part ++ rest, ?_, ?_, ?_⟩
  · apply banded_append (banded_push done solid parts.1.2 above) parts.2.2
    intro last member next second
    obtain ⟨grown, found, high, label⟩ := Run.push_last bands part
    rw [found, Option.mem_some_iff] at member
    subst member
    have before := parts.2.1 next second
    rw [Run.Before, high, label]
    exact before
  · rw [added.1, bands_boxes_append]
  · intro x y
    rw [bands_boxes_append, covered_append, covered_push done solid, ← rects, meaning, or_assoc]

/-- The last band of the loop is closed, and what one source has left comes behind it. -/
theorem append_rest_banded {region : NewRegion} {boxes : List Box} {ybot : Int}
    {wanted pixels : Int → Int → Prop} (source : Source boxes ybot pixels)
    (output : Output region ybot fun x y => y < ybot ∧ wanted x y) :
    ∃ bands, Banded bands ∧ appendRest region boxes ybot = bandsBoxes bands ∧
      ∀ x y, Covered (bandsBoxes bands) x y ↔
        y < ybot ∧ wanted x y ∨ ybot ≤ y ∧ pixels x y := by
  cases boxes with
  | nil =>
      rcases output with ⟨bands, banded, rects, -, -, meaning⟩
      refine ⟨bands, banded, rects, ?_⟩
      intro x y
      rw [← rects, meaning]
      constructor
      · exact .inl
      · rintro (above | ⟨below, found⟩)
        · exact above
        · exact absurd ((source_congr source x y below).mpr found) (covered_nil x y)
  | cons box others =>
      obtain ⟨band, rest, first⟩ := source_first source
      obtain ⟨bands, banded, same, meaning⟩ :=
        add_rest_banded first.banded first.reaches output
      refine ⟨bands, banded, ?_, ?_⟩
      · rw [appendRest, first_find first, ← same, row_columns_append_non_o, bandBoxes, columns_row,
          first.low, first.high]
        rfl
      · intro x y
        rw [meaning]
        apply or_congr_right
        constructor
        · rintro (here | there)
          · have inside := (covered_band_boxes _ x y).mp here
            simp only at inside
            refine ⟨by omega, ?_⟩
            rw [first_pixels first (by omega) inside.1.2, InColumns, bandBoxes, columns_row]
            exact ⟨by omega, inside.2⟩
          · have low := covered_rest_low first.banded there
            have reaches := first.reaches
            refine ⟨by omega, ?_⟩
            rw [← first.meaning x y (by omega), first.boxes_eq, bands_boxes_cons, covered_append]
            exact .inr there
        · rintro ⟨below, found⟩
          rw [← first.meaning x y below, first.boxes_eq, bands_boxes_cons, covered_append,
            covered_band_boxes] at found
          rcases found with here | there
          · left
            rw [covered_band_boxes]
            exact ⟨⟨by simp only; omega, here.1.2⟩, here.2⟩
          · exact .inr there

theorem source_ended {boxes : List Box} {ybot : Int} {pixels : Int → Int → Prop}
    (source : Source boxes ybot pixels) (ended : boxes = []) (x y : Int) (below : ybot ≤ y) :
    ¬pixels x y := by
  rw [← source_congr source x y below, ended]
  exact covered_nil x y

theorem op_finish_banded (operates : Operates overlapFunc appendNon1 appendNon2 op) {s : OpState}
    (sweep : Sweep op pixels1 pixels2 s) (ended : s.r1 = [] ∨ s.r2 = []) :
    ∃ bands, Banded bands ∧ opFinish appendNon1 appendNon2 s = bandsBoxes bands ∧
      ∀ x y, Covered (bandsBoxes bands) x y ↔ op (pixels1 x y) (pixels2 x y) := by
  have ended1 := source_ended sweep.source1
  have ended2 := source_ended sweep.source2
  rw [opFinish]
  split
  · next left1 =>
      obtain ⟨bands, banded, same, meaning⟩ := append_rest_banded sweep.source1 sweep.output
      refine ⟨bands, banded, same, ?_⟩
      intro x y
      rw [meaning]
      rcases lt_or_ge y s.ybot with above | below
      · simp [above, not_le.mpr above]
      · have none2 := ended2 (ended.resolve_left left1.1) x y below
        rw [eq_false none2, operates.first]
        simp [below, not_lt.mpr below, left1.2]
  · next no_first =>
      split
      · next left2 =>
          obtain ⟨bands, banded, same, meaning⟩ := append_rest_banded sweep.source2 sweep.output
          refine ⟨bands, banded, same, ?_⟩
          intro x y
          rw [meaning]
          rcases lt_or_ge y s.ybot with above | below
          · simp [above, not_le.mpr above]
          · have none1 := ended1 (ended.resolve_right left2.1) x y below
            rw [eq_false none1, operates.second]
            simp [below, not_lt.mpr below, left2.2]
      · next no_second =>
          rcases sweep.output with ⟨bands, banded, rects, -, -, meaning⟩
          refine ⟨bands, banded, rects, ?_⟩
          intro x y
          rw [← rects, meaning]
          rcases lt_or_ge y s.ybot with above | below
          · simp [above]
          · apply iff_of_false
            · exact fun found => absurd found.1 (not_lt.mpr below)
            · rcases ended with done1 | done2
              · rw [eq_false (ended1 done1 x y below), operates.second]
                rintro ⟨appends, found⟩
                exact no_second ⟨fun none => ended2 none x y below found, appends⟩
              · rw [eq_false (ended2 done2 x y below), operates.first]
                rintro ⟨appends, found⟩
                exact no_first ⟨fun none => ended1 none x y below found, appends⟩

/-- The boxes of the result cover the pixels that the operation says, in canonical form. -/
theorem op_boxes_banded (operates : Operates overlapFunc appendNon1 appendNon2 op)
    {bands1 bands2 : List Band} (banded1 : Banded bands1) (banded2 : Banded bands2)
    (some1 : bandsBoxes bands1 ≠ []) (some2 : bandsBoxes bands2 ≠ []) :
    ∃ bands, Banded bands ∧
      opBoxes overlapFunc appendNon1 appendNon2 (bandsBoxes bands1) (bandsBoxes bands2) =
        bandsBoxes bands ∧
      ∀ x y, Covered (bandsBoxes bands) x y ↔
        op (Covered (bandsBoxes bands1) x y) (Covered (bandsBoxes bands2) x y) := by
  have start := start_sweep operates banded1 banded2 some1 some2
  have last := op_loop_sweep operates _ start some1 some2 le_rfl
  exact op_finish_banded operates last.1 last.2

end Turn

end XrdpConsole.PixmanRegion
