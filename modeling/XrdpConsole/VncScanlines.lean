import XrdpConsole.VncRefinement

/-!
# Scanlines and the transport buffer

`framebuffer_update_size_ok` bounds the pixels of a scanline and
`lib_framebuffer_incremental_schedule_raw` its bytes. The two agree up to 65536
bytes a line.
-/

namespace XrdpConsole.VncScanlines

open XrdpConsole.Library
open XrdpConsole.Library.Program
open XrdpConsole.VncState
open XrdpConsole.VncFramebuffer
open XrdpConsole.VncIncremental
open XrdpConsole.VncRectangles
open XrdpConsole.VncParserInvariant

set_option autoImplicit false

/-- The color depths of the module. -/
def supportedBpps : List Nat := [8, 15, 16, 24, 32]

/-- The incremental parser is on, with the buffer that `lib_mod_connect` gives its transport. -/
structure Configured (bpp quantum : Nat) (v : Vnc) : Prop where
  depth : v.serverBpp = bpp
  quantum : v.framebufferReadQuantum = quantum
  on : v.incrementalFramebuffer = true
  inSize : v.trans.inSize = 8 * 8192

/-- No strip of a RAW rectangle of `cx` times `cy` pixels makes the parser give up, and none of the
products on the way exceeds an `int`. -/
structure AcceptsRaw (bpp quantum cx cy : Nat) : Prop where
  /-- the call for the first strip, and those for the strips after it -/
  schedules : ∀ (v : Vnc) (x y done : Nat), Configured bpp quantum v →
    InRaw (getBytesPerPixel bpp) x y cx cy done v → 0 < cx → done < cy →
      ∃ after, Returns scheduleRaw v () after
  header : ∀ (answers : ServerAnswers) (data : List Byte) (v : Vnc), Configured bpp quantum v →
    inUint16Be data 4 = cx → inUint16Be data 6 = cy → inUint32Be data 8 = rfbEncRaw → 0 < cx →
      0 < cy → ∃ after, Returns (rectHeaderData answers data) v () after
  strip : ∀ (answers : ServerAnswers) (data : List Byte) (v : Vnc) (x y done rows : Nat),
    Configured bpp quantum v → InRaw (getBytesPerPixel bpp) x y cx cy done v → 0 < cx →
      data.length = rows * (cx * getBytesPerPixel bpp) → done + rows < cy →
        ∃ after, Returns (rawData answers data) v () after
  area : (cx * cy : Int) ≤ intMax
  rowBytes : (cx * getBytesPerPixel bpp : Int) ≤ intMax
  readBytes : ∀ rowsRemaining : Nat, 0 < rowsRemaining →
    (rowsPerRead quantum (cx * getBytesPerPixel bpp) rowsRemaining *
      (cx * getBytesPerPixel bpp) : Int) ≤ intMax

theorem bytes_per_pixel_bounds {bpp : Nat} (supported : bpp ∈ supportedBpps) :
    1 ≤ getBytesPerPixel bpp ∧ getBytesPerPixel bpp ≤ 4 := by
  simp only [supportedBpps, List.mem_cons, List.not_mem_nil, or_false] at supported
  rcases supported with rfl | rfl | rfl | rfl | rfl <;> decide

section Rectangle

variable {bpp quantum cx cy : Nat}

theorem admitted_bounds (admitted : framebufferUpdateSizeOk cx cy = true) :
    cx ≤ 32766 ∧ (cx * cy : Int) ≤ intMax / 4 := by
  simp only [framebufferUpdateSizeOk, Bool.and_eq_true, decide_eq_true_eq] at admitted
  exact ⟨admitted.1.1, admitted.2⟩

theorem admitted_row_bytes (supported : bpp ∈ supportedBpps)
    (admitted : framebufferUpdateSizeOk cx cy = true) : cx * getBytesPerPixel bpp ≤ 131064 := by
  have width := (admitted_bounds admitted).1
  have depth := (bytes_per_pixel_bounds supported).2
  calc cx * getBytesPerPixel bpp ≤ 32766 * 4 := Nat.mul_le_mul width depth
    _ = 131064 := rfl

theorem strip_bytes_bound (supported : bpp ∈ supportedBpps) (upper : quantum ≤ 65536)
    (admitted : framebufferUpdateSizeOk cx cy = true) {rowsRemaining : Nat}
    (some_row : 0 < rowsRemaining) :
    rowsPerRead quantum (cx * getBytesPerPixel bpp) rowsRemaining * (cx * getBytesPerPixel bpp) ≤
      131064 := by
  have row := admitted_row_bytes supported admitted
  have strip := (rows_per_read_bounds some_row quantum (cx * getBytesPerPixel bpp)).2.2
  omega

theorem configured_parsing {v : Vnc} (configured : Configured bpp quantum v)
    (upper : quantum ≤ 65536) : Parsing v where
  on := configured.on
  quantum := configured.quantum.le.trans upper
  inSize := configured.inSize

theorem narrow_schedules (supported : bpp ∈ supportedBpps) (upper : quantum ≤ 65536)
    (narrow : cx * getBytesPerPixel bpp ≤ 8 * 8192) {v : Vnc} {x y done : Nat}
    (configured : Configured bpp quantum v)
    (raw : InRaw (getBytesPerPixel bpp) x y cx cy done v) (width : 0 < cx) (inside : done < cy) :
    ∃ after, Returns scheduleRaw v () after := by
  have depth := (bytes_per_pixel_bounds supported).1
  have rowBytes : 0 < cx * getBytesPerPixel bpp := Nat.mul_pos width depth
  exact ⟨_, schedule_returns raw (configured_parsing configured upper) rowBytes narrow inside⟩

/-- One scanline alone does not fit. -/
theorem wide_row_stops {v : Vnc} {x y : Nat} {bytes : Nat} (raw : InRaw bytes x y cx cy 0 v)
    (inSize : v.trans.inSize = 8 * 8192) (wide : 8 * 8192 < cx * bytes) (height : 0 < cy) :
    ∀ after, ¬Returns scheduleRaw v () after := by
  intro after ran
  have one := (rows_per_read_bounds height v.framebufferReadQuantum (cx * bytes)).1
  have strip : 1 * (cx * bytes) ≤ rowsPerRead v.framebufferReadQuantum (cx * bytes) cy *
    (cx * bytes) := Nat.mul_le_mul_right _ one
  unfold scheduleRaw at ran
  obtain ⟨read, middle, same, ran⟩ := (returns_bind _ _ _ _ _).mp ran
  obtain ⟨rfl, rfl⟩ := (returns_read _ _ _ _).mp same
  simp only [id_eq, raw.height, raw.rowBytes, raw.rowsDone, Nat.sub_zero] at ran
  rw [if_neg (by omega), if_pos (by rw [inSize]; omega)] at ran
  exact returns_stop _ _ _ _ ran

theorem narrow_header (supported : bpp ∈ supportedBpps) (upper : quantum ≤ 65536)
    (admitted : framebufferUpdateSizeOk cx cy = true)
    (narrow : cx * getBytesPerPixel bpp ≤ 8 * 8192) (answers : ServerAnswers) {data : List Byte}
    {v : Vnc} (configured : Configured bpp quantum v) (width : inUint16Be data 4 = cx)
    (height : inUint16Be data 6 = cy) (raw : inUint32Be data 8 = rfbEncRaw) (some_column : 0 < cx)
    (some_row : 0 < cy) : ∃ after, Returns (rectHeaderData answers data) v () after := by
  obtain rfl := configured.depth
  let started : Vnc := { v with
    framebufferX := inUint16Be data 0
    framebufferY := inUint16Be data 2
    framebufferCx := cx
    framebufferCy := cy
    framebufferRawRowBytes := cx * getBytesPerPixel v.serverBpp
    framebufferRawRowsDone := 0 }
  have here : InRaw (getBytesPerPixel v.serverBpp) (inUint16Be data 0) (inUint16Be data 2) cx cy 0 started :=
    ⟨rfl, rfl, rfl, rfl, rfl, rfl⟩
  have configuredHere : Configured v.serverBpp quantum started :=
    ⟨rfl, configured.quantum, configured.on, configured.inSize⟩
  obtain ⟨after, scheduled⟩ :=
    narrow_schedules supported upper narrow configuredHere here some_column some_row
  refine ⟨after, ?_⟩
  unfold rectHeaderData incrementalRect
  rw [width, height, raw, if_neg (by rw [admitted]; decide), if_pos rfl, if_neg (by omega)]
  exact (returns_bind _ _ _ _ _).mpr
    ⟨(), _, rfl, (returns_bind _ _ _ _ _).mpr ⟨(), started, rfl, scheduled⟩⟩

theorem narrow_strip (supported : bpp ∈ supportedBpps) (upper : quantum ≤ 65536)
    (narrow : cx * getBytesPerPixel bpp ≤ 8 * 8192) (answers : ServerAnswers) {data : List Byte}
    {v : Vnc} {x y done rows : Nat} (configured : Configured bpp quantum v)
    (raw : InRaw (getBytesPerPixel bpp) x y cx cy done v) (width : 0 < cx)
    (size : data.length = rows * (cx * getBytesPerPixel bpp)) (inside : done + rows < cy) :
    ∃ after, Returns (rawData answers data) v () after := by
  have rowBytes : 0 < cx * getBytesPerPixel bpp :=
    Nat.mul_pos width (bytes_per_pixel_bounds supported).1
  let stripped : Vnc :=
    { painted v x (y + done) cx rows data with framebufferRawRowsDone := done + rows }
  have here : InRaw (getBytesPerPixel bpp) x y cx cy (done + rows) stripped :=
    ⟨raw.left, raw.top, raw.width, raw.height, raw.rowBytes, rfl⟩
  have configuredHere : Configured bpp quantum stripped :=
    ⟨configured.depth, configured.quantum, configured.on, configured.inSize⟩
  obtain ⟨after, scheduled⟩ :=
    narrow_schedules supported upper narrow configuredHere here width inside
  refine ⟨after, raw_data_returns raw rowBytes size ?_⟩
  rw [if_pos inside]
  exact scheduled

theorem admitted_products (supported : bpp ∈ supportedBpps) (upper : quantum ≤ 65536)
    (admitted : framebufferUpdateSizeOk cx cy = true) :
    (cx * cy : Int) ≤ intMax ∧ (cx * getBytesPerPixel bpp : Int) ≤ intMax ∧
      ∀ rowsRemaining : Nat, 0 < rowsRemaining →
        (rowsPerRead quantum (cx * getBytesPerPixel bpp) rowsRemaining *
          (cx * getBytesPerPixel bpp) : Int) ≤ intMax := by
  have area := (admitted_bounds admitted).2
  have row := admitted_row_bytes supported admitted
  have bound : (131064 : Int) ≤ intMax := by decide
  refine ⟨area.trans (by decide), ?_, ?_⟩
  · have cast : (cx * getBytesPerPixel bpp : Int) ≤ 131064 := by exact_mod_cast row
    exact cast.trans bound
  · intro rowsRemaining some_row
    have strip := strip_bytes_bound supported upper admitted some_row
    have cast : (rowsPerRead quantum (cx * getBytesPerPixel bpp) rowsRemaining *
      (cx * getBytesPerPixel bpp) : Int) ≤ 131064 := by exact_mod_cast strip
    exact cast.trans bound

/-- The module at the first strip of a RAW rectangle. -/
def atFirstStrip (bpp quantum cx cy : Nat) : Vnc :=
  { connected [] with
    serverBpp := bpp
    framebufferReadQuantum := quantum
    framebufferCx := cx
    framebufferCy := cy
    framebufferRawRowBytes := cx * getBytesPerPixel bpp }

/-- The parser takes every rectangle that the size check admits if and only if a scanline is no
longer than the transport buffer. -/
theorem accepts_raw_iff (supported : bpp ∈ supportedBpps) (upper : quantum ≤ 65536)
    (admitted : framebufferUpdateSizeOk cx cy = true) :
    AcceptsRaw bpp quantum cx cy ↔ cx * getBytesPerPixel bpp ≤ 65536 ∨ cy = 0 := by
  constructor
  · intro accepts
    by_contra wide
    have width : 0 < cx := by
      apply Nat.pos_of_ne_zero
      rintro rfl
      omega
    have here : InRaw (getBytesPerPixel bpp) 0 0 cx cy 0 (atFirstStrip bpp quantum cx cy) :=
      ⟨rfl, rfl, rfl, rfl, rfl, rfl⟩
    obtain ⟨after, scheduled⟩ := accepts.schedules _ 0 0 0 ⟨rfl, rfl, rfl, rfl⟩ here width (by omega)
    exact wide_row_stops here rfl (by omega) (by omega) after scheduled
  · intro fits
    obtain ⟨area, rowBytes, readBytes⟩ := admitted_products supported upper admitted
    have narrow : 0 < cy → cx * getBytesPerPixel bpp ≤ 8 * 8192 := by omega
    refine ⟨?_, ?_, ?_, area, rowBytes, readBytes⟩
    · intro v x y done configured raw width inside
      exact narrow_schedules supported upper (narrow (by omega)) configured raw width inside
    · intro answers data v configured width height encoding some_column some_row
      exact narrow_header supported upper admitted (narrow some_row) answers configured width height
        encoding some_column some_row
    · intro answers data v x y done rows configured raw width size inside
      exact narrow_strip supported upper (narrow (by omega)) answers configured raw width size inside

end Rectangle

theorem accepts_raw_narrow : AcceptsRaw 32 1024 16384 1 :=
  (accepts_raw_iff (by decide) (by decide) (by decide)).mpr (.inl (by decide))

/-- One pixel more than the buffer holds. -/
theorem admitted_row_exceeds_buffer :
    framebufferUpdateSizeOk 16385 1 = true ∧ ¬AcceptsRaw 32 1024 16385 1 := by
  refine ⟨by decide, fun accepts => ?_⟩
  have here : InRaw 4 0 0 16385 1 0 (atFirstStrip 32 1024 16385 1) :=
    ⟨rfl, rfl, rfl, rfl, rfl, rfl⟩
  obtain ⟨after, scheduled⟩ :=
    accepts.schedules _ 0 0 0 ⟨rfl, rfl, rfl, rfl⟩ here (by decide) (by decide)
  exact wide_row_stops here rfl (by decide) (by decide) after scheduled

end XrdpConsole.VncScanlines
