import XrdpConsole.PlanarDecode

/-!
# Round trip of planar bitmaps

`Codes last encoded values` says that a decoder that has just read `last` makes
`values` of the bytes `encoded`. Each loop of `fout` and `fpack` writes codes of
the bytes it passes; the delta and plane steps are inverted line by line. The
tiles the server sends are small enough that every line is compressed.
-/

namespace XrdpConsole.PlanarRoundTrip

open XrdpConsole.Library
open XrdpConsole.VncState
open XrdpConsole.PlanarCompress
open XrdpConsole.PlanarDecode

set_option autoImplicit false

/-! ## Run lengths of one line -/

def Codes (last : Byte) (encoded values : List Byte) : Prop :=
  ∀ fuel width rest tail left, values.length + width ≤ fuel →
    (∀ enough, width ≤ enough →
      decodeLine enough width (values.getLastD last) rest = some (tail, left)) →
    decodeLine fuel (values.length + width) last (encoded ++ rest) = some (values ++ tail, left)

theorem codes_nil (last : Byte) : Codes last [] [] := by
  intro fuel width rest tail left enough decoded
  simpa using decoded fuel (by simpa using enough)

theorem get_last_append (last : Byte) (values later : List Byte) :
    (values ++ later).getLastD last = later.getLastD (values.getLastD last) := by
  cases later with
  | nil => simp
  | cons value later => simp [List.getLastD_eq_getLast?, List.getLast?_append]

theorem get_last_replicate (last : Byte) (count : Nat) :
    (List.replicate count last).getLastD last = last := by
  cases count with
  | zero => rfl
  | succ count => simp [List.getLastD_eq_getLast?, List.getLast?_replicate]

theorem codes_append {last : Byte} {encoded values encodedLater later : List Byte}
    (first : Codes last encoded values)
    (second : Codes (values.getLastD last) encodedLater later) :
    Codes last (encoded ++ encodedLater) (values ++ later) := by
  intro fuel width rest tail left enough decoded
  rw [List.length_append, Nat.add_assoc, List.append_assoc, List.append_assoc]
  apply first
  · simpa [List.length_append, Nat.add_assoc] using enough
  · intro remaining bound
    apply second _ _ _ _ _ bound
    simpa only [get_last_append] using decoded

theorem codes_segment {control : Byte} (last : Byte) (raw : List Byte) (run : Nat)
    (lengths : controlLengths control = (raw.length, run)) (moves : 0 < raw.length + run) :
    Codes last (control :: raw) (raw ++ List.replicate run (raw.getLastD last)) := by
  intro fuel width rest tail left enough decoded
  have size : (raw ++ List.replicate run (raw.getLastD last)).length = raw.length + run := by simp
  rw [size] at enough ⊢
  obtain ⟨fuel, rfl⟩ : ∃ smaller, fuel = smaller + 1 := ⟨fuel - 1, by omega⟩
  obtain ⟨total, same⟩ : ∃ total, raw.length + run + width = total + 1 :=
    ⟨raw.length + run + width - 1, by omega⟩
  have fits : raw.length + run ≤ total + 1 := by omega
  have remaining : total + 1 - (raw.length + run) = width := by omega
  rw [same, List.cons_append]
  simp only [decodeLine, lengths, List.take_left, List.drop_left, fits, moves, and_self, if_true,
    remaining]
  rw [decoded fuel (by omega), Option.map_some]

theorem control_big_run (run : Nat) (lower : 15 < run) (upper : run ≤ 47) :
    controlLengths (UInt8.ofNat (((run &&& 0xF) <<< 4) ||| ((run &&& 0xF0) >>> 4))) = (0, run) := by
  have all : ∀ run ≤ 47, 15 < run →
      controlLengths (UInt8.ofNat (((run &&& 0xF) <<< 4) ||| ((run &&& 0xF0) >>> 4))) =
        (0, run) := by decide
  exact all run upper lower

theorem control_raw_run (raw run : Nat) (rawBound : raw ≤ 15) (runBound : run ≤ 15)
    (free : run = 0 ∨ 3 ≤ run) :
    controlLengths (UInt8.ofNat ((raw <<< 4) ||| run)) = (raw, run) := by
  have all : ∀ raw ≤ 15, ∀ run ≤ 15, (run = 0 ∨ 3 ≤ run) →
      controlLengths (UInt8.ofNat ((raw <<< 4) ||| run)) = (raw, run) := by decide
  exact all raw rawBound run runBound free

/-- A long run without raw values, and what is left of it. -/
theorem codes_big_run {last : Byte} {encoded : List Byte} {run replen : Nat}
    (lower : 15 < run) (upper : run ≤ 47) (within : run ≤ replen)
    (later : Codes last encoded (List.replicate (replen - run) last)) :
    Codes last (UInt8.ofNat (((run &&& 0xF) <<< 4) ||| ((run &&& 0xF0) >>> 4)) :: encoded)
      (List.replicate replen last) := by
  have head : Codes last [UInt8.ofNat (((run &&& 0xF) <<< 4) ||| ((run &&& 0xF0) >>> 4))]
      (List.replicate run last) := by
    simpa using codes_segment last [] run (control_big_run run lower upper) (by simp; omega)
  have whole : List.replicate replen last =
      List.replicate run last ++ List.replicate (replen - run) last := by
    rw [List.replicate_append_replicate, Nat.add_sub_cancel' within]
  rw [whole]
  apply codes_append head
  rwa [get_last_replicate]

/-- Raw values with a run after them, and what is left of the run. -/
theorem codes_raw_run (last : Byte) (raw : List Byte) {encoded : List Byte} (run replen : Nat)
    (rawBound : raw.length ≤ 15) (runBound : run ≤ 15) (free : run = 0 ∨ 3 ≤ run)
    (moves : 0 < raw.length + run) (within : run ≤ replen)
    (later : Codes (raw.getLastD last) encoded
      (List.replicate (replen - run) (raw.getLastD last))) :
    Codes last (UInt8.ofNat ((raw.length <<< 4) ||| run) :: raw ++ encoded)
      (raw ++ List.replicate replen (raw.getLastD last)) := by
  have head : Codes last (UInt8.ofNat ((raw.length <<< 4) ||| run) :: raw)
      (raw ++ List.replicate run (raw.getLastD last)) :=
    codes_segment last raw run (control_raw_run raw.length run rawBound runBound free) moves
  have whole : raw ++ List.replicate replen (raw.getLastD last) =
      (raw ++ List.replicate run (raw.getLastD last)) ++
        List.replicate (replen - run) (raw.getLastD last) := by
    rw [List.append_assoc, List.replicate_append_replicate, Nat.add_sub_cancel' within]
  rw [whole]
  apply codes_append head
  rwa [get_last_append, get_last_replicate]

/-- The second loop of `fout`. The induction is on the rounds left; after the
first one no raw byte is pending. -/
theorem fout_runs_codes (fuel : Nat) (raw : List Byte) (replen : Nat) (last : Byte)
    (more : List Byte) (rawBound : raw.length ≤ 13) (enough : replen < fuel) :
    Codes last
      (foutRuns fuel raw.length replen (raw ++ List.replicate replen (raw.getLastD last) ++ more))
      (raw ++ List.replicate replen (raw.getLastD last)) := by
  induction fuel generalizing raw replen last more with
  | zero => omega
  | succ fuel ih =>
      have restart := fun (value : Byte) (count : Nat) (fewer : count < fuel) =>
        ih [] count value more (by simp) fewer
      simp only [List.getLastD_nil, List.nil_append, List.length_nil] at restart
      by_cases pending : raw.length > 0 ∨ replen > 0
      · by_cases big : raw.length = 0 ∧ replen > 15
        · obtain ⟨noRaw, long⟩ := big
          obtain rfl : raw = [] := List.length_eq_zero_iff.mp noRaw
          have dropped : (List.replicate replen last ++ more).drop (min replen 47) =
              List.replicate (replen - min replen 47) last ++ more := by
            rw [List.drop_append_of_le_length (by rw [List.length_replicate]; omega), List.drop_replicate]
          simp only [List.getLastD_nil, List.nil_append, List.length_nil, foutRuns]
          rw [if_pos (by omega), if_pos ⟨trivial, long⟩, dropped]
          apply codes_big_run (by omega) (by omega) (by omega)
          exact restart last _ (by omega)
        · rw [foutRuns, if_pos pending, if_neg big]
          by_cases short : min replen 15 < 3
          · have whole : min replen 15 = replen := by omega
            have size : (raw ++ List.replicate replen (raw.getLastD last)).length =
                raw.length + replen := by simp
            have finished : foutRuns fuel 0 0 more = [] := by
              cases fuel with
              | zero => rfl
              | succ fuel => simp [foutRuns]
            have code := codes_raw_run last (raw ++ List.replicate replen (raw.getLastD last)) 0 0
              (by omega) (by omega) (.inl rfl) (by omega) (by omega) (codes_nil _)
            rw [size, List.replicate_zero, List.append_nil, List.append_nil] at code
            rw [whole] at short ⊢
            simp only [if_pos short, Nat.sub_self, Nat.add_zero]
            rw [← size, List.take_left, List.drop_left, finished, size, List.append_nil]
            exact code
          · have split : raw.length + min replen 15 ≤
                (raw ++ List.replicate replen (raw.getLastD last)).length := by
              rw [List.length_append, List.length_replicate]
              omega
            have dropped : (raw ++ List.replicate replen (raw.getLastD last) ++ more).drop
                (raw.length + min replen 15) =
                List.replicate (replen - min replen 15) (raw.getLastD last) ++ more := by
              rw [List.drop_append_of_le_length split, List.drop_append]
              simp
            have taken : (raw ++ List.replicate replen (raw.getLastD last) ++ more).take
                raw.length = raw := by
              rw [List.append_assoc, List.take_left]
            simp only [if_neg short, taken, dropped]
            apply codes_raw_run _ _ _ _ (by omega) (by omega) (by omega) (by omega) (by omega)
            exact restart _ _ (by omega)
      · obtain ⟨noRaw, noRun⟩ : raw.length = 0 ∧ replen = 0 := by omega
        obtain rfl : raw = [] := List.length_eq_zero_iff.mp noRaw
        rw [foutRuns, if_neg pending, noRun]
        exact codes_nil last

/-- Both loops of `fout`. -/
theorem fout_codes (fuel : Nat) (raw : List Byte) (replen : Nat) (last : Byte)
    (more : List Byte) (enough : raw.length < fuel) :
    Codes last
      (fout fuel raw.length replen (raw ++ List.replicate replen (raw.getLastD last) ++ more))
      (raw ++ List.replicate replen (raw.getLastD last)) := by
  induction fuel generalizing raw last with
  | zero => omega
  | succ fuel ih =>
      by_cases long : raw.length > 13
      · have cut : min raw.length 15 ≤ raw.length := by omega
        have parts := List.take_append_drop (min raw.length 15) raw
        have lastSame : (raw.drop (min raw.length 15)).getLastD
            ((raw.take (min raw.length 15)).getLastD last) = raw.getLastD last := by
          rw [← get_last_append, parts]
        have rest := ih (raw.drop (min raw.length 15))
          ((raw.take (min raw.length 15)).getLastD last) (by simp; omega)
        rw [lastSame, List.length_drop] at rest
        have head : Codes last (UInt8.ofNat (min raw.length 15 <<< 4) ::
            raw.take (min raw.length 15)) (raw.take (min raw.length 15)) := by
          have lengths := control_raw_run (min raw.length 15) 0 (by omega) (by omega) (.inl rfl)
          rw [Nat.or_zero] at lengths
          simpa using codes_segment last (raw.take (min raw.length 15)) 0
            (by simpa using lengths) (by simp; omega)
        have both := codes_append head rest
        rw [← List.append_assoc (raw.take _), parts] at both
        rw [fout, if_pos long]
        simp only [List.append_assoc] at both ⊢
        rwa [List.take_append_of_le_length cut, List.drop_append_of_le_length cut]
      · rw [fout, if_neg long]
        exact fout_runs_codes _ raw replen last more (by omega) (by omega)

/-- The loop of `fpack`: `raw` and the run after it are pending, and `current` is
the value both end with. -/
theorem pack_loop_codes (rest raw : List Byte) (replen : Nat) (last current : Byte)
    (lastRaw : current = raw.getLastD last) :
    Codes last (packLoop raw.length replen (raw ++ List.replicate replen current ++ rest) current rest)
      (raw ++ List.replicate replen current ++ rest) := by
  induction rest generalizing raw replen last current with
  | nil =>
      rw [packLoop, lastRaw]
      simpa using fout_codes (raw.length + 1) raw replen last [] (by omega)
  | cons next rest ih =>
      have pending : (raw ++ List.replicate replen current).getLastD last = current := by
        rw [get_last_append, ← lastRaw, get_last_replicate]
      -- the pending run is short and becomes raw values
      have merged : Codes last
          (packLoop (raw.length + replen + 1) 0
            (raw ++ List.replicate replen current ++ next :: rest) next rest)
          (raw ++ List.replicate replen current ++ next :: rest) := by
        simpa [Nat.add_assoc] using
          ih (raw ++ List.replicate replen current ++ [next]) 0 last next (by simp)
      rw [packLoop]
      split
      · rename_i same
        subst same
        have longer : List.replicate (replen + 1) current =
            List.replicate replen current ++ [current] := List.replicate_succ'
        simpa [longer] using ih raw (replen + 1) last current lastRaw
      · split
        · split
          · exact merged
          · have written := fout_codes (raw.length + 1) raw replen last (next :: rest) (by omega)
            rw [← lastRaw] at written
            apply codes_append written
            rw [pending]
            simpa using ih [next] 0 current next (by simp)
        · obtain rfl : replen = 0 := by omega
          simpa using merged

theorem pack_line_codes (line : List Byte) : Codes 0 (packLine line) line := by
  cases line with
  | nil => exact codes_nil 0
  | cons first rest =>
      rw [packLine]
      split
      · rename_i zero
        simpa [zero] using pack_loop_codes rest [] 1 0 0 rfl
      · simpa using pack_loop_codes rest [first] 0 0 first rfl

theorem decode_pack_line (line suffix : List Byte) :
    decodeLine line.length line.length 0 (packLine line ++ suffix) = some (line, suffix) := by
  have decoded := pack_line_codes line line.length 0 suffix [] suffix (by simp)
    (by intro fuel _; cases fuel <;> rfl)
  simpa using decoded

/-! ## Deltas between lines -/

/-- A delta survives its code; there are only 256 of them. -/
theorem undelta_zero_delta (delta : Byte) : undeltaOne 0 (deltaOne 0 delta) = delta := by
  have all : ∀ bits : BitVec 8,
      undeltaOne 0 (deltaOne 0 (UInt8.ofBitVec bits)) = UInt8.ofBitVec bits := by decide
  exact all delta.toBitVec

theorem undelta_delta_one (above current : Byte) :
    undeltaOne above (deltaOne above current) = current := by
  have moved : deltaOne above current = deltaOne 0 (current - above) := by simp [deltaOne]
  have shifted : ∀ code, undeltaOne above code = above + undeltaOne 0 code := by
    intro code
    simp [undeltaOne]
  rw [shifted, moved, undelta_zero_delta, UInt8.add_comm, UInt8.sub_add_cancel]

theorem undelta_delta_line (above line : List Byte) (same : line.length = above.length) :
    List.zipWith undeltaOne above (List.zipWith deltaOne above line) = line := by
  induction above generalizing line with
  | nil => simp [List.length_eq_zero_iff.mp same]
  | cons first above ih =>
      cases line with
      | nil => simp at same
      | cons value line =>
          simp only [List.zipWith_cons_cons, undelta_delta_one]
          rw [ih line (by simpa using same)]

theorem undelta_delta_lines (above : List Byte) (lines : List (List Byte)) (cx : Nat)
    (first : above.length = cx) (same : ∀ line ∈ lines, line.length = cx) :
    undeltaLines above (deltaLines above lines) = lines := by
  induction lines generalizing above with
  | nil => rfl
  | cons line lines ih =>
      have width := same line (List.mem_cons_self ..)
      simp only [deltaLines, undeltaLines]
      rw [undelta_delta_line above line (width.trans first.symm),
        ih line width fun other member => same other (List.mem_cons_of_mem line member)]

theorem undelta_fdelta (lines : List (List Byte)) (cx : Nat)
    (same : ∀ line ∈ lines, line.length = cx) : undelta (fdelta lines) = lines := by
  cases lines with
  | nil => rfl
  | cons first lines =>
      rw [fdelta, undelta, undelta_delta_lines first lines cx (same first (List.mem_cons_self ..))
        fun other member => same other (List.mem_cons_of_mem first member)]

theorem delta_lines_lengths (above : List Byte) (lines : List (List Byte)) (cx : Nat)
    (first : above.length = cx) (same : ∀ line ∈ lines, line.length = cx) :
    (deltaLines above lines).length = lines.length ∧
      ∀ line ∈ deltaLines above lines, line.length = cx := by
  induction lines generalizing above with
  | nil => simp [deltaLines]
  | cons line lines ih =>
      have width := same line (List.mem_cons_self ..)
      have rest := ih line width fun other member => same other (List.mem_cons_of_mem line member)
      simp [deltaLines, rest.1, first, width]
      exact rest.2

theorem fdelta_lengths (lines : List (List Byte)) (cx : Nat)
    (same : ∀ line ∈ lines, line.length = cx) :
    (fdelta lines).length = lines.length ∧ ∀ line ∈ fdelta lines, line.length = cx := by
  cases lines with
  | nil => simp [fdelta]
  | cons first lines =>
      have width := same first (List.mem_cons_self ..)
      have rest := delta_lines_lengths first lines cx width
        fun other member => same other (List.mem_cons_of_mem first member)
      simp [fdelta, rest.1, width]
      exact rest.2

/-! ## Planes -/

/-- A plane of `cy` lines of `cx` bytes. -/
def PlaneSize (cx cy : Nat) (plane : List (List Byte)) : Prop :=
  plane.length = cy ∧ ∀ line ∈ plane, line.length = cx

theorem decode_packed_plane {cx cy : Nat} {plane : List (List Byte)} (size : PlaneSize cx cy plane)
    (suffix : List Byte) :
    decodePlane cx cy (fpack (fdelta plane) cy ++ suffix) = some (plane, suffix) := by
  obtain ⟨height, width⟩ := size
  obtain ⟨heightDelta, widthDelta⟩ := fdelta_lengths plane cx width
  have decoded := decode_many_flat_map (decodeLine cx cx 0) packLine id (fdelta plane) suffix (by
      intro line member rest
      have line_width := widthDelta line member
      simpa [line_width] using decode_pack_line line rest)
  rw [heightDelta, height] at decoded
  rw [decodePlane, fpack, List.take_of_length_le (by omega), decoded]
  simp [undelta_fdelta plane cx width]

theorem decode_raw_plane {cx cy : Nat} {plane : List (List Byte)} (size : PlaneSize cx cy plane)
    (suffix : List Byte) :
    decodeMany (decodeRawLine cx) cy ((plane.take cy).flatten ++ suffix) = some (plane, suffix) := by
  obtain ⟨height, width⟩ := size
  have decoded := decode_many_flat_map (decodeRawLine cx) id id plane suffix (by
      intro line member rest
      have line_width := width line member
      simp [decodeRawLine, ← line_width])
  rw [height] at decoded
  rw [List.take_of_length_le (by omega)]
  simpa [List.flatMap_id] using decoded

theorem read_pixels_length (width : Nat) (line more : List Byte) (size : line.length = width * 4) :
    (readPixels width (line ++ more)).length = width := by
  induction width generalizing line with
  | zero => simp [readPixels]
  | succ width ih =>
      rcases line with _ | ⟨b, _ | ⟨g, _ | ⟨r, _ | ⟨a, line⟩⟩⟩⟩
      all_goals simp at size
      case cons.cons.cons.cons =>
        simp only [List.cons_append, readPixels, List.length_cons]
        rw [ih line (by omega)]
      all_goals omega

theorem read_pixels_append (width : Nat) (line more : List Byte) (size : line.length = width * 4) :
    readPixels width (line ++ more) = readPixels width line := by
  induction width generalizing line with
  | zero => simp [readPixels]
  | succ width ih =>
      rcases line with _ | ⟨b, _ | ⟨g, _ | ⟨r, _ | ⟨a, line⟩⟩⟩⟩
      all_goals simp at size
      case cons.cons.cons.cons =>
        simp only [List.cons_append, readPixels]
        rw [ih line (by omega)]
      all_goals omega

/-- A buffer of lines of `size` bytes, read at the start of each line. -/
theorem map_range_lines {Value : Type} (size : Nat) (read : List Byte → Value)
    (lines : List (List Byte)) (sizes : ∀ line ∈ lines, line.length = size)
    (local_read : ∀ line more, line.length = size → read (line ++ more) = read line) :
    (List.range lines.length).map (fun line => read (lines.flatten.drop (line * size))) =
      lines.map read := by
  induction lines with
  | nil => rfl
  | cons line lines ih =>
      have head := sizes line (List.mem_cons_self ..)
      have tail := ih fun other member => sizes other (List.mem_cons_of_mem line member)
      have shifted : ∀ index, (line :: lines).flatten.drop ((index + 1) * size) =
          lines.flatten.drop (index * size) := by
        intro index
        rw [List.flatten_cons, Nat.succ_mul, Nat.add_comm, ← List.drop_drop, ← head,
          List.drop_left]
      rw [List.length_cons, List.range_succ_eq_map, List.map_cons, List.map_map, List.map_cons]
      simp only [Function.comp_def, Nat.succ_eq_add_one, shifted, tail]
      simp [local_read line lines.flatten head]

theorem fsplit_lines_all (width lines outIndex : Nat)
    (fits : outIndex + lines * width ≤ 64 * 64) :
    fsplitLines width 0 lines outIndex = (List.range lines).reverse := by
  induction lines generalizing outIndex with
  | zero => rfl
  | succ lines ih =>
      rw [fsplitLines, List.range_succ, List.reverse_append]
      simp only [Nat.add_zero, List.reverse_singleton, List.singleton_append]
      rw [Nat.succ_mul] at fits
      split
      · rename_i full
        cases lines with
        | zero => rfl
        | succ lines =>
            rw [Nat.succ_mul] at fits
            omega
      · rw [ih (outIndex + width) (by omega)]

/-- The lines were written from the bottom up and are split from the bottom up. -/
theorem fsplit_reversed {width : Nat} {rows : List (List Byte)} (some_row : 0 < rows.length)
    (sizes : ∀ row ∈ rows, row.length = width * 4) (fits : width * rows.length ≤ 64 * 64)
    (channel : Pixel → Byte) :
    fsplit rows.reverse.flatten (rows.length - 1) width 0 channel =
      rows.map fun row => (readPixels width row).map channel := by
  have lines : fsplitLines width 0 (rows.length - 1 + 1) 0 = (List.range rows.length).reverse := by
    rw [Nat.sub_add_cancel some_row]
    apply fsplit_lines_all
    rw [Nat.zero_add, Nat.mul_comm]
    exact fits
  have read := map_range_lines (width * 4) (fun bytes => (readPixels width bytes).map channel)
    rows.reverse (fun row member => sizes row (List.mem_reverse.mp member))
    (fun row more size => by simp only [read_pixels_append width row more size])
  rw [List.length_reverse] at read
  simp only [fsplit, lines, appendLast, List.replicate_zero, List.append_nil, List.map_reverse,
    Nat.mul_assoc]
  rw [read, List.map_reverse, List.reverse_reverse]

theorem channel_plane_size {width : Nat} {rows : List (List Byte)}
    (sizes : ∀ row ∈ rows, row.length = width * 4) (channel : Pixel → Byte) :
    PlaneSize width rows.length (rows.map fun row => (readPixels width row).map channel) := by
  constructor
  · simp
  · intro line member
    obtain ⟨row, rowMember, rfl⟩ := List.mem_map.mp member
    have size := read_pixels_length width row [] (sizes row rowMember)
    rw [List.append_nil] at size
    rw [List.length_map, size]

theorem join_pixels_channels (pixels : List Pixel) :
    joinPixels (pixels.map Pixel.a) (pixels.map Pixel.r) (pixels.map Pixel.g)
      (pixels.map Pixel.b) = pixels := by
  induction pixels with
  | nil => rfl
  | cons pixel pixels ih => simp only [List.map_cons, joinPixels, ih]

theorem join_planes_channels (rows : List (List Pixel)) :
    joinPlanes (rows.map (List.map Pixel.a)) (rows.map (List.map Pixel.r))
      (rows.map (List.map Pixel.g)) (rows.map (List.map Pixel.b)) = rows := by
  induction rows with
  | nil => rfl
  | cons row rows ih => simp only [List.map_cons, joinPlanes, join_pixels_channels, ih]

/-! ## Bitmaps -/

theorem decode_planes {cx cy : Nat} (plane : PrefixDecoder Byte (List (List Byte)))
    (encode : List (List Byte) → List Byte)
    (roundtrip : ∀ lines, PlaneSize cx cy lines → ∀ suffix,
      plane (encode lines ++ suffix) = some (lines, suffix))
    (planes : List (List (List Byte))) (sizes : ∀ lines ∈ planes, PlaneSize cx cy lines)
    (suffix : List Byte) :
    decodeMany plane planes.length (planes.flatMap encode ++ suffix) = some (planes, suffix) := by
  simpa using decode_many_flat_map plane encode id planes suffix
    fun lines member => roundtrip lines (sizes lines member)

/-- With room for the raw planes no line is given up, in either form. -/
theorem compress_rle_form (header rawHeader cx byteLimit cy : Nat)
    (planes : List (List (List Byte))) (written : List Byte) (some_line : 0 < cy)
    (room : 2 + cx * cy * planes.length ≤ byteLimit) :
    compressRle header rawHeader cx byteLimit planes cy written =
        (cy, foutraw rawHeader planes cy) ∨
      compressRle header rawHeader cx byteLimit planes cy written =
        (cy, UInt8.ofNat header :: planes.flatMap fun plane => fpack (fdelta plane) cy) := by
  obtain ⟨cy, rfl⟩ : ∃ smaller, cy = smaller + 1 := ⟨cy - 1, by omega⟩
  have planewise : (planes.map fdelta).flatMap (fun plane => fpack plane (cy + 1)) =
      planes.flatMap fun plane => fpack (fdelta plane) (cy + 1) := List.flatMap_map ..
  simp only [compressRle, planewise]
  by_cases large : (planes.flatMap fun plane => fpack (fdelta plane) (cy + 1)).length >
      cx * (cy + 1) * planes.length
  · left
    rw [if_pos ⟨large, room⟩]
  · right
    rw [if_neg (fun both => large both.1), if_pos (by omega)]

theorem decode_foutraw {cx cy : Nat} {planes : List (List (List Byte))}
    (count : planes.length = 4) (sizes : ∀ plane ∈ planes, PlaneSize cx cy plane) :
    decodeBitmap cx cy (foutraw 0 planes cy) = joinBitmap planes := by
  have decoded := decode_planes (decodeMany (decodeRawLine cx) cy)
    (fun plane => (plane.take cy).flatten) (fun _ size suffix => decode_raw_plane size suffix)
    planes sizes [0]
  rw [count] at decoded
  simp [foutraw, decodeBitmap, flagsRle, flagsNoalpha, decoded]

theorem decode_packed {cx cy : Nat} {planes : List (List (List Byte))}
    (count : planes.length = 4) (sizes : ∀ plane ∈ planes, PlaneSize cx cy plane) :
    decodeBitmap cx cy (UInt8.ofNat 0x10 :: planes.flatMap fun plane => fpack (fdelta plane) cy) =
      joinBitmap planes := by
  have decoded := decode_planes (decodePlane cx cy) (fun plane => fpack (fdelta plane) cy)
    (fun _ size suffix => decode_packed_plane size suffix) planes sizes []
  rw [count, List.append_nil] at decoded
  simp [decodeBitmap, flagsRle, flagsNoalpha, decoded]

/-- The call both planar senders make on a tile of at most 4096 pixels whose rows
they copied from the bottom up: every line is compressed, and the client gets the
pixels of the rows. -/
theorem decode_compressed_tile {width : Nat} {rows : List (List Byte)} (some_row : 0 < rows.length)
    (sizes : ∀ row ∈ rows, row.length = width * 4) (fits : width * rows.length ≤ 64 * 64) :
    ∃ bytes, xrdpBitmap32Compress rows.reverse.flatten width (32 * 1024) (rows.length - 1)
        (32 * 1024) 0 0x10 = (rows.length, bytes) ∧
      decodeBitmap width rows.length bytes = some (rows.map (readPixels width)) := by
  have planes : fsplit4 rows.reverse.flatten (rows.length - 1) width 0 =
      [Pixel.a, Pixel.r, Pixel.g, Pixel.b].map fun channel =>
        rows.map fun row => (readPixels width row).map channel := by
    simp only [fsplit4, fsplit_reversed some_row sizes fits, List.map_cons, List.map_nil]
  have planeSizes : ∀ plane ∈ fsplit4 rows.reverse.flatten (rows.length - 1) width 0,
      PlaneSize width rows.length plane := by
    rw [planes]
    intro plane member
    obtain ⟨channel, -, rfl⟩ := List.mem_map.mp member
    exact channel_plane_size sizes channel
  have count : (fsplit4 rows.reverse.flatten (rows.length - 1) width 0).length = 4 := rfl
  have lines : (fsplitLines width 0 (rows.length - 1 + 1) 0).length = rows.length := by
    rw [Nat.sub_add_cancel some_row, fsplit_lines_all width rows.length 0 (by lia),
      List.length_reverse, List.length_range]
  have joined : joinBitmap (fsplit4 rows.reverse.flatten (rows.length - 1) width 0) =
      some (rows.map (readPixels width)) := by
    have channels := join_planes_channels (rows.map (readPixels width))
    simp only [List.map_map, Function.comp_def] at channels
    rw [planes]
    simp only [List.map_cons, List.map_nil, joinBitmap, channels]
  have compressed : ∀ bytes, compressRle 0x10 0 width (32 * 1024)
      (fsplit4 rows.reverse.flatten (rows.length - 1) width 0) rows.length [] =
        (rows.length, bytes) →
      xrdpBitmap32Compress rows.reverse.flatten width (32 * 1024) (rows.length - 1) (32 * 1024) 0
        0x10 = (rows.length, bytes) := by
    intro bytes ran
    simp only [xrdpBitmap32Compress, lines]
    exact ran
  rcases compress_rle_form 0x10 0 width (32 * 1024) rows.length _ [] some_row
    (by rw [count]; omega) with raw | packed
  · exact ⟨_, compressed _ raw, (decode_foutraw count planeSizes).trans joined⟩
  · exact ⟨_, compressed _ packed, (decode_packed count planeSizes).trans joined⟩

end XrdpConsole.PlanarRoundTrip
