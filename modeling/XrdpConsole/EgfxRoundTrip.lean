import XrdpConsole.EgfxWire

/-!
# What the client reads is what was sent
-/

namespace XrdpConsole.EgfxRoundTrip

open XrdpConsole.Library
open XrdpConsole.Library.Field
open XrdpConsole.VncState
open XrdpConsole.EgfxWire

set_option autoImplicit false

/-! ## Values that fit their fields -/

def AllFit (fields : List Field) : Prop := ∀ field ∈ fields, field.Fits

instance (field : Field) : Decidable field.Fits :=
  inferInstanceAs (Decidable (0 ≤ field.value ∧ field.value < 256 ^ field.width))

instance (fields : List Field) : Decidable (AllFit fields) :=
  inferInstanceAs (Decidable (∀ field ∈ fields, field.Fits))

theorem all_fit_append {front back : List Field} :
    AllFit (front ++ back) ↔ AllFit front ∧ AllFit back := List.forall_mem_append

theorem u8_fits {value : Int} : (u8 value).Fits ↔ 0 ≤ value ∧ value < 2 ^ 8 := Iff.rfl

theorem u16_fits {value : Int} : (u16 value).Fits ↔ 0 ≤ value ∧ value < 2 ^ 16 := Iff.rfl

theorem u32_fits {value : Int} : (u32 value).Fits ↔ 0 ≤ value ∧ value < 2 ^ 32 := Iff.rfl

def SignedFits (value : Int) : Prop := -2 ^ 31 ≤ value ∧ value < 2 ^ 31

def MonitorFits (mi : EgfxMonitor) : Prop :=
  SignedFits mi.left ∧ SignedFits mi.top ∧ SignedFits mi.right ∧ SignedFits mi.bottom ∧
    (u32 mi.isPrimary).Fits

/-- The size of the stream that is allocated for the data is an `int`. -/
def DataFits (bitmapData : List Byte) : Prop :=
  bitmapData.length + 8192 + 5 * (bitmapData.length / 0xFFFF) < 2 ^ 31

/-- Every number of a message fits the field it is written to. -/
def Fits : EgfxMessage → Prop
  | .capsConfirm version flags => AllFit [u32 version, u32 flags]
  | .resetGraphics width height monitors =>
      AllFit [u32 width, u32 height] ∧ monitors.length ≤ 16 ∧
        ∀ mi ∈ sentMonitors width height monitors, MonitorFits mi
  | .createSurface surfaceId width height pixelFormat =>
      AllFit [u16 surfaceId, u16 width, u16 height, u8 pixelFormat]
  | .deleteSurface surfaceId => AllFit [u16 surfaceId]
  | .mapSurface surfaceId x y => AllFit [u16 surfaceId, u32 x, u32 y]
  | .fillSurface surfaceId fillColor rects =>
      AllFit [u16 surfaceId, u32 fillColor, u16 rects.length] ∧ ∀ rect ∈ rects, AllFit (rectFields rect)
  | .surfaceToSurface srcSurfaceId dstSurfaceId srcRect dstPoints =>
      AllFit [u16 srcSurfaceId, u16 dstSurfaceId, u16 dstPoints.length] ∧ AllFit (rectFields srcRect) ∧
        ∀ point ∈ dstPoints, AllFit (pointFields point)
  | .frameStart frameId timestamp => AllFit [u32 frameId, u32 timestamp]
  | .frameEnd frameId => AllFit [u32 frameId]
  | .wireToSurface1 surfaceId codecId pixelFormat destRect bitmapData =>
      AllFit [u16 surfaceId, u16 codecId, u8 pixelFormat] ∧ AllFit (rectFields destRect) ∧
        DataFits bitmapData
  | .wireToSurface2 surfaceId codecId codecContextId pixelFormat bitmapData =>
      AllFit [u16 surfaceId, u16 codecId, u32 codecContextId, u8 pixelFormat] ∧ DataFits bitmapData

/-- What the client is told; a session without monitors is one that covers it all. -/
def told : EgfxMessage → EgfxMessage
  | .resetGraphics width height monitors =>
      .resetGraphics width height (sentMonitors width height monitors)
  | message => message

/-! ## Rows of fields -/

theorem read_rect_bytes {rect : Rect} (fits : AllFit (rectFields rect)) (rest : List Byte) :
    readRect (fieldBytes (rectFields rect) ++ rest) = some (rect, rest) := by
  have fields : readFields [2, 2, 2, 2] (fieldBytes (rectFields rect) ++ rest) =
      some ([rect.left, rect.top, rect.right, rect.bottom], rest) := read_fields_fit fits rest
  rw [readRect, fields]

theorem read_point_bytes {point : EgfxPoint} (fits : AllFit (pointFields point)) (rest : List Byte) :
    readPoint (fieldBytes (pointFields point) ++ rest) = some (point, rest) := by
  have fields : readFields [2, 2] (fieldBytes (pointFields point) ++ rest) =
      some ([point.x, point.y], rest) := read_fields_fit fits rest
  rw [readPoint, fields]

theorem signed_word {value : Int} (fits : SignedFits value) : signed 4 (u32 value).held = value := by
  have small := fits.1
  have large := fits.2
  exact signed_held (u32 value) (by simp only [u32]; omega) (by simp only [u32]; omega)

theorem read_monitor_bytes {mi : EgfxMonitor} (fits : MonitorFits mi) (rest : List Byte) :
    readMonitor (fieldBytes (monitorFields mi) ++ rest) = some (mi, rest) := by
  have fields : readFields [4, 4, 4, 4, 4] (fieldBytes (monitorFields mi) ++ rest) =
      some ([(u32 mi.left).held, (u32 mi.top).held, (u32 mi.right).held, (u32 mi.bottom).held,
        (u32 mi.isPrimary).held], rest) := read_fields_bytes (monitorFields mi) rest
  obtain ⟨left, top, right, bottom, primary⟩ := fits
  simp only [readMonitor, fields, signed_word left, signed_word top, signed_word right,
    signed_word bottom, held_fits primary]
  rfl

theorem field_bytes_flat_map {Item : Type} (fields : Item → List Field) (items : List Item) :
    fieldBytes (items.flatMap fields) = items.flatMap fun item => fieldBytes (fields item) := by
  rw [fieldBytes, List.flatMap_assoc]
  rfl

/-- Items that are read back one by one are read back in a row. -/
theorem decode_items {Item : Type} {fields : Item → List Field} {decode : PrefixDecoder Byte Item}
    {items : List Item}
    (roundtrip : ∀ item ∈ items, ∀ rest, decode (fieldBytes (fields item) ++ rest) = some (item, rest))
    (rest : List Byte) :
    decodeMany decode items.length (fieldBytes (items.flatMap fields) ++ rest) =
      some (items, rest) := by
  rw [field_bytes_flat_map]
  have many := decode_many_flat_map decode (fun item => fieldBytes (fields item)) id items rest roundtrip
  rwa [List.map_id] at many

/-! ## Segments -/

theorem read_segment_bytes {part : List Byte} (small : part.length + 1 < 2 ^ 32) (rest : List Byte) :
    readSegment (dataSegment part ++ rest) = some (part, rest) := by
  have fits : AllFit [u32 (1 + part.length), u8 packetComprTypeRdp8] := by
    simp only [AllFit, List.forall_mem_cons, u32_fits, u8_fits, packetComprTypeRdp8]
    refine ⟨⟨by omega, by omega⟩, by decide, by simp⟩
  have fields : readFields [4, 1]
      (fieldBytes [u32 (1 + part.length), u8 packetComprTypeRdp8] ++ (part ++ rest)) =
      some ([1 + (part.length : Int), packetComprTypeRdp8], part ++ rest) :=
    read_fields_fit fits (part ++ rest)
  have size : (1 + (part.length : Int) - 1).toNat = part.length := by omega
  rw [readSegment, dataSegment, List.append_assoc, fields]
  simp only [size, List.take_left, List.drop_left]
  rw [if_pos ⟨trivial, by omega, by rw [List.length_append]; omega⟩]

theorem read_segments_single (data : List Byte) :
    readSegments (fieldBytes [u8 0xE0, u8 packetComprTypeRdp8] ++ data) = some data := rfl

theorem read_segments_parts (parts : List (List Byte)) (count : parts.length < 2 ^ 16)
    (small : ∀ part ∈ parts, part.length + 1 < 2 ^ 32) (total : parts.flatten.length < 2 ^ 32) :
    readSegments (fieldBytes [u8 0xE1, u16 parts.length, u32 parts.flatten.length] ++
      parts.flatMap dataSegment) = some parts.flatten := by
  have fits : AllFit [u16 parts.length, u32 parts.flatten.length] := by
    simp only [AllFit, List.forall_mem_cons, u32_fits, u16_fits]
    refine ⟨⟨by omega, by omega⟩, ⟨by omega, by omega⟩, by simp⟩
  have descriptor : readFields [1] (fieldBytes [u8 0xE1, u16 parts.length, u32 parts.flatten.length] ++
      parts.flatMap dataSegment) =
      some ([0xE1], fieldBytes [u16 parts.length, u32 parts.flatten.length] ++
        parts.flatMap dataSegment) := rfl
  have fields : readFields [2, 4] (fieldBytes [u16 parts.length, u32 parts.flatten.length] ++
      parts.flatMap dataSegment) =
      some ([(parts.length : Int), parts.flatten.length], parts.flatMap dataSegment) :=
    read_fields_fit fits (parts.flatMap dataSegment)
  have many := decode_many_flat_map readSegment dataSegment id parts [] (by
    intro part member rest
    exact read_segment_bytes (small part member) rest)
  rw [List.append_nil, List.map_id] at many
  simp only [readSegments, descriptor, fields, Int.toNat_natCast, many]
  simp

theorem read_message_data {cmdId : Int} {input body : List Byte} (command : (u16 cmdId).Fits)
    (small : body.length + 8 < 2 ^ 32)
    (data : readSegments input =
      some (fieldBytes [u16 cmdId, u16 0, u32 (body.length + 8)] ++ body)) :
    readMessage input = readBody cmdId body := by
  have fits : AllFit [u16 cmdId, u16 0, u32 (body.length + 8)] := by
    simp only [AllFit, List.forall_mem_cons, u32_fits, u16_fits]
    refine ⟨command, by decide, ⟨by omega, by omega⟩, by simp⟩
  have header : readFields [2, 2, 4]
      (fieldBytes [u16 cmdId, u16 0, u32 (body.length + 8)] ++ body) =
      some ([cmdId, 0, (body.length : Int) + 8], body) := read_fields_fit fits body
  have whole : ((fieldBytes [u16 cmdId, u16 0, u32 (body.length + 8)] ++ body).length : Int) =
      body.length + 8 := by
    rw [List.length_append, field_bytes_length]
    simp only [List.map_cons, List.map_nil, u16, u32, List.sum_cons, List.sum_nil]
    omega
  rw [readMessage, data, Option.bind_some]
  simp only [header, whole, if_true]

theorem read_message_single {cmdId : Int} {body : List Field} (command : (u16 cmdId).Fits)
    (small : sizeOfFields body + 8 < 2 ^ 32) :
    readMessage (single cmdId body) = readBody cmdId (fieldBytes body) := by
  have size : sizeOfFields body = (fieldBytes body).length := (field_bytes_length body).symm
  apply read_message_data command (by omega)
  rw [single, field_bytes_append, size]
  exact read_segments_single _

theorem read_message_multipart {headerSize : Nat} {cmdId : Int} {header : List Field}
    {bitmapData : List Byte} (command : (u16 cmdId).Fits)
    (counted : sizeOfFields header + 12 = headerSize) (header_small : headerSize < 2 ^ 8)
    (fits : DataFits bitmapData) :
    readMessage (multipart headerSize cmdId header bitmapData) =
      readBody cmdId (fieldBytes (header ++ [u32 bitmapData.length]) ++ bitmapData) := by
  unfold DataFits at fits
  have limit : 0 < maxPartSize := by decide
  have joined := pieces_flatten limit bitmapData
  have bounds := pieces_bounds limit bitmapData
  have count := pieces_count limit bitmapData
  simp only [maxPartSize] at bounds count
  have body_size : (fieldBytes (header ++ [u32 bitmapData.length]) ++ bitmapData).length + 8 =
      headerSize + bitmapData.length := by
    rw [List.length_append, field_bytes_length, List.map_append, List.sum_append]
    simp only [List.map_cons, List.map_nil, u32, List.sum_cons, List.sum_nil]
    rw [sizeOfFields] at counted
    omega
  have head_size : (fieldBytes ([u16 cmdId, u16 0, u32 (headerSize + bitmapData.length)] ++ header ++
      [u32 bitmapData.length])).length = headerSize := by
    rw [field_bytes_length]
    simp only [List.map_append, List.sum_append, List.map_cons, List.map_nil, u16, u32,
      List.sum_cons, List.sum_nil]
    rw [sizeOfFields] at counted
    omega
  apply read_message_data command (by omega)
  have parts := read_segments_parts
    (fieldBytes ([u16 cmdId, u16 0, u32 (headerSize + bitmapData.length)] ++ header ++
      [u32 bitmapData.length]) :: pieces maxPartSize bitmapData)
    (by rw [List.length_cons]; simp only [maxPartSize]; omega)
    (by
      intro part member
      rcases List.mem_cons.mp member with rfl | later
      · omega
      · have bound := bounds part (by simpa only [maxPartSize] using later)
        omega)
    (by rw [List.flatten_cons, joined, List.length_append, head_size]; omega)
  rw [List.flatten_cons, joined, List.length_append, head_size, List.length_cons,
    List.flatMap_cons] at parts
  have same : multipart headerSize cmdId header bitmapData =
      fieldBytes [u8 0xE1, u16 ((pieces maxPartSize bitmapData).length + 1 : Nat),
        u32 (headerSize + bitmapData.length : Nat)] ++
        (dataSegment (fieldBytes ([u16 cmdId, u16 0, u32 (headerSize + bitmapData.length)] ++
          header ++ [u32 bitmapData.length])) ++
        (pieces maxPartSize bitmapData).flatMap dataSegment) := by
    rw [multipart, dataSegment, head_size]
    push_cast
    simp only [field_bytes_append, field_bytes_cons, field_bytes_nil, List.append_assoc,
      List.cons_append, List.nil_append, Int.add_comm 1]
  rw [same, parts]
  congr 1
  have body_length : ((fieldBytes (header ++ [u32 bitmapData.length]) ++ bitmapData).length : Int) + 8 =
      headerSize + bitmapData.length := by
    omega
  rw [body_length]
  simp only [field_bytes_append, List.append_assoc]

/-! ## Messages -/

theorem read_caps_confirm {version flags : Int} (fits : Fits (.capsConfirm version flags)) :
    readMessage (xrdpEgfxCapsconfirm version flags) = some (.capsConfirm version flags) := by
  have row : AllFit [u32 version, u32 4, u32 flags] := by
    simp only [Fits, AllFit, List.forall_mem_cons] at fits ⊢
    exact ⟨fits.1, by decide, fits.2⟩
  have fields : readAll [4, 4, 4] (fieldBytes [u32 version, u32 4, u32 flags]) =
      some [version, 4, flags] := read_all_fit row
  rw [xrdpEgfxCapsconfirm, read_message_single (by decide) (by simp [sizeOfFields, u32]), readBody,
    if_pos rfl, fields]
  rfl

theorem read_create_surface {surfaceId width height pixelFormat : Int}
    (fits : Fits (.createSurface surfaceId width height pixelFormat)) :
    readMessage (xrdpEgfxCreateSurface surfaceId width height pixelFormat) =
      some (.createSurface surfaceId width height pixelFormat) := by
  have fields : readAll [2, 2, 2, 1]
      (fieldBytes [u16 surfaceId, u16 width, u16 height, u8 pixelFormat]) =
      some [surfaceId, width, height, pixelFormat] := read_all_fit fits
  rw [xrdpEgfxCreateSurface, read_message_single (by decide) (by simp [sizeOfFields, u16, u8]),
    readBody, if_neg (by decide), if_neg (by decide), if_pos rfl, fields]

theorem read_delete_surface {surfaceId : Int} (fits : Fits (.deleteSurface surfaceId)) :
    readMessage (xrdpEgfxDeleteSurface surfaceId) = some (.deleteSurface surfaceId) := by
  have fields : readAll [2] (fieldBytes [u16 surfaceId]) = some [surfaceId] := read_all_fit fits
  rw [xrdpEgfxDeleteSurface, read_message_single (by decide) (by simp [sizeOfFields, u16]), readBody,
    if_neg (by decide), if_neg (by decide), if_neg (by decide), if_pos rfl, fields]

theorem read_map_surface {surfaceId x y : Int} (fits : Fits (.mapSurface surfaceId x y)) :
    readMessage (xrdpEgfxMapSurface surfaceId x y) = some (.mapSurface surfaceId x y) := by
  have row : AllFit [u16 surfaceId, u16 0, u32 x, u32 y] := by
    simp only [Fits, AllFit, List.forall_mem_cons] at fits ⊢
    exact ⟨fits.1, by decide, fits.2⟩
  have fields : readAll [2, 2, 4, 4] (fieldBytes [u16 surfaceId, u16 0, u32 x, u32 y]) =
      some [surfaceId, 0, x, y] := read_all_fit row
  rw [xrdpEgfxMapSurface, read_message_single (by decide) (by simp [sizeOfFields, u16, u32]), readBody,
    if_neg (by decide), if_neg (by decide), if_neg (by decide), if_neg (by decide), if_pos rfl, fields]

theorem read_frame_start {frameId timestamp : Int} (fits : Fits (.frameStart frameId timestamp)) :
    readMessage (xrdpEgfxFrameStart frameId timestamp) = some (.frameStart frameId timestamp) := by
  have row : AllFit [u32 timestamp, u32 frameId] := by
    simp only [Fits, AllFit, List.forall_mem_cons] at fits ⊢
    exact ⟨fits.2.1, fits.1, by simp⟩
  have fields : readAll [4, 4] (fieldBytes [u32 timestamp, u32 frameId]) =
      some [timestamp, frameId] := read_all_fit row
  rw [xrdpEgfxFrameStart, read_message_single (by decide) (by simp [sizeOfFields, u32]), readBody,
    if_neg (by decide), if_neg (by decide), if_neg (by decide), if_neg (by decide),
    if_neg (by decide), if_neg (by decide), if_neg (by decide), if_pos rfl, fields]

theorem read_frame_end {frameId : Int} (fits : Fits (.frameEnd frameId)) :
    readMessage (xrdpEgfxFrameEnd frameId) = some (.frameEnd frameId) := by
  have fields : readAll [4] (fieldBytes [u32 frameId]) = some [frameId] := read_all_fit fits
  rw [xrdpEgfxFrameEnd, read_message_single (by decide) (by simp [sizeOfFields, u32]), readBody,
    if_neg (by decide), if_neg (by decide), if_neg (by decide), if_neg (by decide),
    if_neg (by decide), if_neg (by decide), if_neg (by decide), if_neg (by decide), if_pos rfl, fields]

/-- Rows of the same width take as many bytes as there are rows. -/
theorem size_of_items {Item : Type} {fields : Item → List Field} {width : Nat}
    (each : ∀ item, sizeOfFields (fields item) = width) (items : List Item) :
    sizeOfFields (items.flatMap fields) = items.length * width := by
  induction items with
  | nil => simp [sizeOfFields]
  | cons item items ih =>
      have first := each item
      simp only [sizeOfFields] at first ih ⊢
      rw [List.flatMap_cons, List.map_append, List.sum_append, first, ih, List.length_cons,
        Nat.succ_mul, Nat.add_comm]

theorem size_of_append (front back : List Field) :
    sizeOfFields (front ++ back) = sizeOfFields front + sizeOfFields back := by
  rw [sizeOfFields, List.map_append, List.sum_append]
  rfl

theorem read_fill_surface {surfaceId fillColor : Int} {rects : List Rect}
    (fits : Fits (.fillSurface surfaceId fillColor rects)) :
    readMessage (xrdpEgfxFillSurface surfaceId fillColor rects) =
      some (.fillSurface surfaceId fillColor rects) := by
  obtain ⟨row, each⟩ := fits
  have count := row (u16 rects.length) (by simp)
  rw [u16_fits] at count
  have size : sizeOfFields ([u16 surfaceId, u32 fillColor, u16 rects.length] ++
      rects.flatMap rectFields) + 8 < 2 ^ 32 := by
    rw [size_of_append, @size_of_items Rect rectFields 8 (fun _ => rfl)]
    simp only [sizeOfFields, List.map_cons, List.map_nil, u16, u32, List.sum_cons, List.sum_nil]
    omega
  have fields : readFields [2, 4, 2] (fieldBytes [u16 surfaceId, u32 fillColor, u16 rects.length] ++
      fieldBytes (rects.flatMap rectFields)) =
      some ([surfaceId, fillColor, (rects.length : Int)], fieldBytes (rects.flatMap rectFields)) :=
    read_fields_fit row _
  have items := @decode_items Rect rectFields readRect rects (by
    intro rect member rest
    exact read_rect_bytes (each rect member) rest) []
  rw [List.append_nil] at items
  rw [xrdpEgfxFillSurface, read_message_single (by decide) size, readBody, if_neg (by decide),
    if_neg (by decide), if_neg (by decide), if_neg (by decide), if_neg (by decide), if_pos rfl,
    field_bytes_append, fields]
  simp only [Int.toNat_natCast, items]

theorem read_surface_to_surface {srcSurfaceId dstSurfaceId : Int} {srcRect : Rect}
    {dstPoints : List EgfxPoint}
    (fits : Fits (.surfaceToSurface srcSurfaceId dstSurfaceId srcRect dstPoints)) :
    readMessage (xrdpEgfxSurfaceToSurface srcSurfaceId dstSurfaceId srcRect dstPoints) =
      some (.surfaceToSurface srcSurfaceId dstSurfaceId srcRect dstPoints) := by
  obtain ⟨row, rect, each⟩ := fits
  simp only [AllFit, List.forall_mem_cons] at row
  obtain ⟨source, target, count, -⟩ := row
  have few := u16_fits.mp count
  have size : sizeOfFields ([u16 srcSurfaceId, u16 dstSurfaceId] ++ rectFields srcRect ++
      [u16 dstPoints.length] ++ dstPoints.flatMap pointFields) + 8 < 2 ^ 32 := by
    rw [size_of_append, @size_of_items EgfxPoint pointFields 4 (fun _ => rfl)]
    simp only [sizeOfFields, rectFields, List.cons_append, List.nil_append, List.map_cons, List.map_nil,
      u16, List.sum_cons, List.sum_nil]
    omega
  have ids_fit : AllFit [u16 srcSurfaceId, u16 dstSurfaceId] := by simp [AllFit, source, target]
  have count_fits : AllFit [u16 dstPoints.length] := by simp [AllFit, count]
  have ids : ∀ rest, readFields [2, 2] (fieldBytes [u16 srcSurfaceId, u16 dstSurfaceId] ++ rest) =
      some ([srcSurfaceId, dstSurfaceId], rest) := read_fields_fit ids_fit
  have points : ∀ rest, readFields [2] (fieldBytes [u16 dstPoints.length] ++ rest) =
      some ([(dstPoints.length : Int)], rest) := read_fields_fit count_fits
  have items := @decode_items EgfxPoint pointFields readPoint dstPoints (by
    intro point member rest
    exact read_point_bytes (each point member) rest) []
  rw [List.append_nil] at items
  rw [xrdpEgfxSurfaceToSurface, read_message_single (by decide) size, readBody, if_neg (by decide),
    if_neg (by decide), if_neg (by decide), if_neg (by decide), if_neg (by decide), if_neg (by decide),
    if_pos rfl, field_bytes_append, field_bytes_append, field_bytes_append, List.append_assoc,
    List.append_assoc, ids]
  simp only [read_rect_bytes rect, Option.bind_some, points, Int.toNat_natCast, items]

theorem length_fits_of_data {bitmapData : List Byte} (fits : DataFits bitmapData) :
    (u32 bitmapData.length).Fits := by
  unfold DataFits at fits
  exact u32_fits.mpr ⟨by omega, by omega⟩

theorem read_wire_to_surface1 {surfaceId codecId pixelFormat : Int} {destRect : Rect}
    {bitmapData : List Byte}
    (fits : Fits (.wireToSurface1 surfaceId codecId pixelFormat destRect bitmapData)) :
    readMessage (xrdpEgfxWireToSurface1 surfaceId codecId pixelFormat destRect bitmapData) =
      some (.wireToSurface1 surfaceId codecId pixelFormat destRect bitmapData) := by
  obtain ⟨row, rect, data⟩ := fits
  have format : ∀ rest,
      readFields [2, 2, 1] (fieldBytes [u16 surfaceId, u16 codecId, u8 pixelFormat] ++ rest) =
        some ([surfaceId, codecId, pixelFormat], rest) := read_fields_fit row
  have length_fits : AllFit [u32 bitmapData.length] := by simp [AllFit, length_fits_of_data data]
  have length : readFields [4] (fieldBytes [u32 bitmapData.length] ++ bitmapData) =
      some ([(bitmapData.length : Int)], bitmapData) := read_fields_fit length_fits bitmapData
  have whole := @read_message_multipart 25 cmdidWireToSurface1
    ([u16 surfaceId, u16 codecId, u8 pixelFormat] ++ rectFields destRect) bitmapData (by decide)
    (by rfl) (by decide) data
  rw [xrdpEgfxWireToSurface1]
  apply whole.trans
  rw [readBody, if_neg (by decide), if_neg (by decide), if_neg (by decide), if_neg (by decide),
    if_neg (by decide), if_neg (by decide), if_neg (by decide), if_neg (by decide), if_neg (by decide),
    if_pos rfl, field_bytes_append, field_bytes_append, List.append_assoc, List.append_assoc, format]
  simp only [read_rect_bytes rect, Option.bind_some, length, if_true]

theorem read_wire_to_surface2 {surfaceId codecId codecContextId pixelFormat : Int}
    {bitmapData : List Byte}
    (fits : Fits (.wireToSurface2 surfaceId codecId codecContextId pixelFormat bitmapData)) :
    readMessage (xrdpEgfxWireToSurface2 surfaceId codecId codecContextId pixelFormat bitmapData) =
      some (.wireToSurface2 surfaceId codecId codecContextId pixelFormat bitmapData) := by
  obtain ⟨row, data⟩ := fits
  have length_fits : AllFit [u32 bitmapData.length] := by simp [AllFit, length_fits_of_data data]
  have fields : readFields [2, 2, 4, 1, 4] (fieldBytes ([u16 surfaceId, u16 codecId, u32 codecContextId,
      u8 pixelFormat] ++ [u32 bitmapData.length]) ++ bitmapData) =
      some ([surfaceId, codecId, codecContextId, pixelFormat, (bitmapData.length : Int)], bitmapData) :=
    read_fields_fit (all_fit_append.mpr ⟨row, length_fits⟩) bitmapData
  have whole := @read_message_multipart 21 cmdidWireToSurface2
    [u16 surfaceId, u16 codecId, u32 codecContextId, u8 pixelFormat] bitmapData (by decide)
    (by rfl) (by decide) data
  rw [xrdpEgfxWireToSurface2]
  apply whole.trans
  rw [readBody, if_neg (by decide), if_neg (by decide), if_neg (by decide), if_neg (by decide),
    if_neg (by decide), if_neg (by decide), if_neg (by decide), if_neg (by decide), if_neg (by decide),
    if_neg (by decide), if_pos rfl, fields]
  simp

theorem sent_monitors_length (width height : Int) {monitors : List EgfxMonitor}
    (few : monitors.length ≤ 16) :
    0 < (sentMonitors width height monitors).length ∧
      (sentMonitors width height monitors).length ≤ 16 := by
  unfold sentMonitors
  split
  · simp
  · omega

/-- The body of a reset with these monitors. -/
def resetBody (width height : Int) (monitors : List EgfxMonitor) : List Byte :=
  fieldBytes ([u32 width, u32 height, u32 monitors.length] ++ monitors.flatMap monitorFields) ++
    List.replicate (340 - (20 + monitors.length * 20)) 0

/-- With the header the message always has 340 bytes. -/
theorem reset_body_length (width height : Int) {monitors : List EgfxMonitor}
    (few : monitors.length ≤ 16) : (resetBody width height monitors).length + 8 = 340 := by
  have rows := @size_of_items EgfxMonitor monitorFields 20 (fun _ => rfl) monitors
  rw [resetBody, List.length_append, field_bytes_length, List.length_replicate, ← sizeOfFields,
    size_of_append, rows]
  simp only [sizeOfFields, List.map_cons, List.map_nil, u32, List.sum_cons, List.sum_nil]
  omega

theorem read_reset_body {width height : Int} {monitors : List EgfxMonitor}
    (row : AllFit [u32 width, u32 height]) (few : monitors.length ≤ 16)
    (each : ∀ mi ∈ monitors, MonitorFits mi) :
    readBody cmdidResetGraphics (resetBody width height monitors) =
      some (.resetGraphics width height monitors) := by
  have count_fits : AllFit [u32 monitors.length] := by
    simp only [AllFit, List.forall_mem_cons, u32_fits]
    exact ⟨⟨by omega, by omega⟩, by simp⟩
  have fields : ∀ rest, readFields [4, 4, 4] (fieldBytes [u32 width, u32 height, u32 monitors.length] ++
      rest) = some ([width, height, (monitors.length : Int)], rest) :=
    read_fields_fit (all_fit_append.mpr ⟨row, count_fits⟩)
  have items := @decode_items EgfxMonitor monitorFields readMonitor monitors (by
    intro mi member rest
    exact read_monitor_bytes (each mi member) rest)
  rw [readBody, if_neg (by decide), if_pos rfl, resetBody, field_bytes_append, List.append_assoc, fields]
  simp only [Int.toNat_natCast, items, Option.map_some]

theorem read_reset_graphics {width height : Int} {monitors : List EgfxMonitor}
    (fits : Fits (.resetGraphics width height monitors)) :
    (xrdpEgfxResetGraphics width height monitors).bind readMessage =
      some (told (.resetGraphics width height monitors)) := by
  obtain ⟨row, few, each⟩ := fits
  rw [xrdpEgfxResetGraphics, if_neg (by omega), Option.bind_some, told]
  have count := (sent_monitors_length width height few).2
  generalize sentMonitors width height monitors = sent at each count
  have size := reset_body_length width height count
  have length : ((resetBody width height sent).length : Int) + 8 = 340 := by omega
  rw [← read_reset_body row count each]
  apply read_message_data (by decide) (by omega)
  rw [length]
  simp only [resetBody, field_bytes_cons, field_bytes_nil, List.append_assoc, List.cons_append,
    List.nil_append]
  rfl

/-- Every message is read as it was built, and a session without monitors as one monitor. -/
theorem read_message_stream {message : EgfxMessage} (fits : Fits message) :
    (stream message).bind readMessage = some (told message) := by
  cases message with
  | capsConfirm version flags => exact read_caps_confirm fits
  | resetGraphics width height monitors => exact read_reset_graphics fits
  | createSurface surfaceId width height pixelFormat => exact read_create_surface fits
  | deleteSurface surfaceId => exact read_delete_surface fits
  | mapSurface surfaceId x y => exact read_map_surface fits
  | fillSurface surfaceId fillColor rects => exact read_fill_surface fits
  | surfaceToSurface srcSurfaceId dstSurfaceId srcRect dstPoints =>
      exact read_surface_to_surface fits
  | frameStart frameId timestamp => exact read_frame_start fits
  | frameEnd frameId => exact read_frame_end fits
  | wireToSurface1 surfaceId codecId pixelFormat destRect bitmapData =>
      exact read_wire_to_surface1 fits
  | wireToSurface2 surfaceId codecId codecContextId pixelFormat bitmapData =>
      exact read_wire_to_surface2 fits

end XrdpConsole.EgfxRoundTrip
