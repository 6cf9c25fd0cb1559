import XrdpConsole.MonitorDescriptions

/-!
# Layout messages

What the server makes of the bytes of a monitor layout, whoever wrote them: it accepts exactly the
messages that list acceptable monitors, and asks for the description these make.
-/

namespace XrdpConsole.LayoutMessages

open XrdpConsole.Library
open XrdpConsole.Library.ByteStream
open XrdpConsole.VncState
open XrdpConsole.MmState
open XrdpConsole.ResizeMachine
open XrdpConsole.EgfxRoundTrip (SignedFits signed_word)
open XrdpConsole.MonitorLayout
open XrdpConsole.MonitorDescriptions

set_option autoImplicit false

/-! ## Monitors on the wire -/

/-- A `DISPLAYCONTROL_MONITOR_LAYOUT`. -/
structure LayoutMonitor where
  flags : Int
  left : Int
  top : Int
  width : Int
  height : Int
  physicalWidth : Int
  physicalHeight : Int
  orientation : Int
  desktopScaleFactor : Int
  deviceScaleFactor : Int
  deriving DecidableEq, Repr

def fieldsOf (monitor : LayoutMonitor) : List Field :=
  [.u32 monitor.flags, .u32 monitor.left, .u32 monitor.top, .u32 monitor.width, .u32 monitor.height,
    .u32 monitor.physicalWidth, .u32 monitor.physicalHeight, .u32 monitor.orientation,
    .u32 monitor.desktopScaleFactor, .u32 monitor.deviceScaleFactor]

/-- The numbers are ones that the fields hold. -/
structure MonitorFits (monitor : LayoutMonitor) : Prop where
  flags : SignedFits monitor.flags
  left : SignedFits monitor.left
  top : SignedFits monitor.top
  width : SignedFits monitor.width
  height : SignedFits monitor.height
  attributes : (Field.u32 monitor.physicalWidth).Fits ∧ (Field.u32 monitor.physicalHeight).Fits ∧
    (Field.u32 monitor.orientation).Fits ∧ (Field.u32 monitor.desktopScaleFactor).Fits ∧
      (Field.u32 monitor.deviceScaleFactor).Fits

def MonitorOk (monitor : LayoutMonitor) : Prop :=
  MonitorWidthOk monitor.width ∧ MonitorHeightOk monitor.height

instance (monitor : LayoutMonitor) : Decidable (MonitorOk monitor) :=
  inferInstanceAs (Decidable (_ ∧ _))

/-- The monitor the server keeps. -/
def monitorOf (monitor : LayoutMonitor) : FullMonitorInfo where
  left := monitor.left
  top := monitor.top
  right := toInt32 (monitor.left + monitor.width - 1)
  bottom := toInt32 (monitor.top + monitor.height - 1)
  flags := monitor.flags
  physicalWidth := monitor.physicalWidth
  physicalHeight := monitor.physicalHeight
  orientation := monitor.orientation
  desktopScaleFactor := monitor.desktopScaleFactor
  deviceScaleFactor := monitor.deviceScaleFactor
  isPrimary := if monitor.flags = displaycontrolMonitorPrimary then tsMonitorPrimary else 0

/-- A monitor ahead is read, or refused for its size. -/
theorem in_monitor_layout {s : ByteStream} {monitor : LayoutMonitor} {rest : List UInt8}
    (here : s.At (fieldBytes (fieldsOf monitor) ++ rest)) (fits : MonitorFits monitor) :
    ∃ behind, inMonitorLayout s =
        some (if MonitorOk monitor then .ok (monitorOf monitor) else .error .invalidMonitor, behind) ∧
      (MonitorOk monitor → behind = s.skip 40 ∧ (s.skip 40).At rest) := by
  obtain ⟨flags, here⟩ := in_next_field here
  obtain ⟨left, here⟩ := in_next_field here
  obtain ⟨top, here⟩ := in_next_field here
  obtain ⟨width, here⟩ := in_next_field here
  obtain ⟨height, here⟩ := in_next_field here
  obtain ⟨physicalWidth, here⟩ := in_next_field here
  obtain ⟨physicalHeight, here⟩ := in_next_field here
  obtain ⟨orientation, here⟩ := in_next_field here
  obtain ⟨desktop, here⟩ := in_next_field here
  obtain ⟨device, here⟩ := in_next_field here
  obtain ⟨fits_w, fits_h, fits_o, fits_s, fits_d⟩ := fits.attributes
  rw [Field.held_fits fits_w] at physicalWidth
  rw [Field.held_fits fits_h] at physicalHeight
  rw [Field.held_fits fits_o] at orientation
  rw [Field.held_fits fits_s] at desktop
  rw [Field.held_fits fits_d] at device
  have signed_flags := signed_word fits.flags
  have signed_left := signed_word fits.left
  have signed_top := signed_word fits.top
  have signed_width := signed_word fits.width
  have signed_height := signed_word fits.height
  simp only [skip_skip, field_bytes_nil, List.nil_append] at *
  simp only [Field.u32] at *
  by_cases wide : MonitorWidthOk monitor.width
  · by_cases high : MonitorHeightOk monitor.height
    · refine ⟨s.skip 40, ?_, fun _ => ⟨rfl, here⟩⟩
      rw [if_pos ⟨wide, high⟩]
      simp only [inMonitorLayout, Option.bind_eq_bind, Option.bind_some, flags, left, top, width,
        height, physicalWidth, physicalHeight, orientation, desktop, device, signed_flags, signed_left,
        signed_top, signed_width, signed_height, if_neg (not_not.mpr wide), if_neg (not_not.mpr high)]
      rfl
    · refine ⟨s.skip 20, ?_, fun ok => absurd ok.2 high⟩
      rw [if_neg fun ok => high ok.2]
      simp only [inMonitorLayout, Option.bind_eq_bind, Option.bind_some, flags, left, top, width,
        height, signed_width, signed_height, if_neg (not_not.mpr wide), if_pos high]
      rfl
  · refine ⟨s.skip 16, ?_, fun ok => absurd ok.1 wide⟩
    rw [if_neg fun ok => wide ok.1]
    simp only [inMonitorLayout, Option.bind_eq_bind, Option.bind_some, flags, left, top, width,
      signed_width, if_pos wide]
    rfl

theorem unsigned_word {field : Field} (word : field.width = 4) : Field.u32 field.value = field := by
  rw [Field.u32, ← word]

/-- The signed reading of a word, in the same bytes. -/
theorem signed_reading {field : Field} (word : field.width = 4) (fits : field.Fits) :
    SignedFits (signed 4 field.value) ∧ (Field.u32 (signed 4 field.value)).bytes = field.bytes := by
  have bounds := fits
  simp only [Field.Fits, word] at bounds
  have small := signed_bounds bounds
  refine ⟨?_, ?_⟩
  · simp only [SignedFits]
    omega
  · rw [Field.u32, bytes_signed, ← word]

/-- Any bytes of the right number are those of a monitor. -/
theorem monitor_of_bytes {bytes : List UInt8} (length : bytes.length = 40) :
    ∃ monitor, MonitorFits monitor ∧ fieldBytes (fieldsOf monitor) = bytes := by
  obtain ⟨fields, same, fits, rfl⟩ :=
    fields_of_bytes (List.replicate 10 4) bytes (by simpa using length)
  obtain ⟨flags, fields, rfl, flags_word, same⟩ := List.map_eq_cons_iff.mp same
  obtain ⟨left, fields, rfl, left_word, same⟩ := List.map_eq_cons_iff.mp same
  obtain ⟨top, fields, rfl, top_word, same⟩ := List.map_eq_cons_iff.mp same
  obtain ⟨width, fields, rfl, width_word, same⟩ := List.map_eq_cons_iff.mp same
  obtain ⟨height, fields, rfl, height_word, same⟩ := List.map_eq_cons_iff.mp same
  obtain ⟨physicalWidth, fields, rfl, physicalWidth_word, same⟩ := List.map_eq_cons_iff.mp same
  obtain ⟨physicalHeight, fields, rfl, physicalHeight_word, same⟩ := List.map_eq_cons_iff.mp same
  obtain ⟨orientation, fields, rfl, orientation_word, same⟩ := List.map_eq_cons_iff.mp same
  obtain ⟨desktop, fields, rfl, desktop_word, same⟩ := List.map_eq_cons_iff.mp same
  obtain ⟨device, fields, rfl, device_word, same⟩ := List.map_eq_cons_iff.mp same
  obtain rfl := List.map_eq_nil_iff.mp same
  simp only [List.forall_mem_cons] at fits
  obtain ⟨flags_fit, left_fit, top_fit, width_fit, height_fit, attributes⟩ := fits
  obtain ⟨flags_signed, flags_bytes⟩ := signed_reading flags_word flags_fit
  obtain ⟨left_signed, left_bytes⟩ := signed_reading left_word left_fit
  obtain ⟨top_signed, top_bytes⟩ := signed_reading top_word top_fit
  obtain ⟨width_signed, width_bytes⟩ := signed_reading width_word width_fit
  obtain ⟨height_signed, height_bytes⟩ := signed_reading height_word height_fit
  refine ⟨{
    flags := signed 4 flags.value
    left := signed 4 left.value
    top := signed 4 top.value
    width := signed 4 width.value
    height := signed 4 height.value
    physicalWidth := physicalWidth.value
    physicalHeight := physicalHeight.value
    orientation := orientation.value
    desktopScaleFactor := desktop.value
    deviceScaleFactor := device.value }, ?_, ?_⟩
  · refine ⟨flags_signed, left_signed, top_signed, width_signed, height_signed, ?_⟩
    simp only [unsigned_word physicalWidth_word, unsigned_word physicalHeight_word,
      unsigned_word orientation_word, unsigned_word desktop_word, unsigned_word device_word]
    exact ⟨attributes.1, attributes.2.1, attributes.2.2.1, attributes.2.2.2.1, attributes.2.2.2.2.1⟩
  · simp only [fieldsOf, field_bytes_cons, flags_bytes, left_bytes, top_bytes, width_bytes,
      height_bytes, unsigned_word physicalWidth_word, unsigned_word physicalHeight_word,
      unsigned_word orientation_word, unsigned_word desktop_word, unsigned_word device_word]

theorem check_rem_iff {s : ByteStream} {ahead : List UInt8} (here : s.At ahead)
    (whole : s.stop = s.bytes.length) (count : Nat) :
    s.checkRem count = true ↔ count ≤ ahead.length := by
  obtain ⟨front, bytes, pos⟩ := here
  rw [checkRem, decide_eq_true_eq, whole, bytes, pos, List.length_append]
  omega

theorem in_monitors {s : ByteStream} {monitors : List LayoutMonitor} {rest : List UInt8}
    (here : s.At (fieldBytes (monitors.flatMap fieldsOf) ++ rest)) (whole : s.stop = s.bytes.length)
    (fits : ∀ monitor ∈ monitors, MonitorFits monitor) (ok : ∀ monitor ∈ monitors, MonitorOk monitor) :
    inMonitors true monitors.length s = some (.ok (monitors.map monitorOf)) := by
  induction monitors generalizing s with
  | nil => rfl
  | cons monitor monitors ih =>
      rw [List.flatMap_cons, field_bytes_append, List.append_assoc] at here
      obtain ⟨fits_here, fits_later⟩ := List.forall_mem_cons.mp fits
      obtain ⟨ok_here, ok_later⟩ := List.forall_mem_cons.mp ok
      obtain ⟨behind, taken, after⟩ := in_monitor_layout here fits_here
      obtain ⟨rfl, ahead⟩ := after ok_here
      have room : s.checkRem 40 = true := by
        apply (check_rem_iff here whole 40).mpr
        simp only [List.length_append, field_bytes_length, fieldsOf, List.map_cons, Field.u32,
          List.sum_cons]
        omega
      have later := ih ahead whole fits_later ok_later
      rw [if_pos ok_here] at taken
      simp only [List.length_cons, inMonitors, if_true, room, Bool.not_true, Bool.false_eq_true,
        if_false, Option.bind_eq_bind, taken, Option.bind_some, later, Except.map, List.map_cons]

/-- Monitors that are accepted are there, byte for byte. -/
theorem monitors_taken {s : ByteStream} {count : Nat} {ahead : List UInt8}
    {found : List FullMonitorInfo} (here : s.At ahead) (whole : s.stop = s.bytes.length)
    (accepted : inMonitors true count s = some (.ok found)) :
    ∃ (monitors : List LayoutMonitor) (rest : List UInt8), monitors.length = count ∧
      ahead = fieldBytes (monitors.flatMap fieldsOf) ++ rest ∧
      (∀ monitor ∈ monitors, MonitorFits monitor) ∧ (∀ monitor ∈ monitors, MonitorOk monitor) ∧
      found = monitors.map monitorOf := by
  induction count generalizing s ahead found with
  | zero =>
      have none_found : ([] : List FullMonitorInfo) = found := by
        simpa [inMonitors] using accepted
      exact ⟨[], ahead, rfl, by simp, by simp, by simp, none_found.symm⟩
  | succ count ih =>
      by_cases room : s.checkRem 40 = true
      · have long := (check_rem_iff here whole 40).mp room
        obtain ⟨monitor, fits, front⟩ := @monitor_of_bytes (ahead.take 40) (by
          rw [List.length_take]
          omega)
        have split_here : s.At (fieldBytes (fieldsOf monitor) ++ ahead.drop 40) := by
          rwa [front, List.take_append_drop]
        obtain ⟨behind, taken, after⟩ := in_monitor_layout split_here fits
        simp only [inMonitors, if_true, room, Bool.not_true, Bool.false_eq_true, if_false,
          Option.bind_eq_bind, taken, Option.bind_some] at accepted
        by_cases ok : MonitorOk monitor
        · obtain ⟨rfl, later⟩ := after ok
          rw [if_pos ok] at accepted
          simp only [Option.bind_eq_some_iff, Option.some.injEq] at accepted
          obtain ⟨result, later_read, joined⟩ := accepted
          cases result with
          | error error => simp [Except.map] at joined
          | ok others =>
              obtain ⟨monitors, rest, listed, behind, fits_later, ok_later, rfl⟩ :=
                ih later whole later_read
              refine ⟨monitor :: monitors, rest, by rw [List.length_cons, listed], ?_, ?_, ?_, ?_⟩
              · rw [List.flatMap_cons, field_bytes_append, List.append_assoc, ← behind, front,
                  List.take_append_drop]
              · exact List.forall_mem_cons.mpr ⟨fits, fits_later⟩
              · exact List.forall_mem_cons.mpr ⟨ok, ok_later⟩
              · simpa [Except.map] using joined.symm
        · rw [if_neg ok] at accepted
          simp at accepted
      · simp [inMonitors, room] at accepted

/-- Four bytes ahead are a number, which is read. -/
theorem word_ahead {s : ByteStream} {ahead : List UInt8} (here : s.At ahead)
    (room : 4 ≤ ahead.length) :
    ∃ value, (Field.u32 value).Fits ∧ ahead = (Field.u32 value).bytes ++ ahead.drop 4 ∧
      s.inUint 4 = some (value, s.skip 4) ∧ (s.skip 4).At (ahead.drop 4) := by
  obtain ⟨fields, widths, fits, front⟩ := fields_of_bytes [4] (ahead.take 4) (by
    rw [List.length_take, List.sum_singleton]
    omega)
  obtain ⟨field, rest, rfl, word, empty⟩ := List.map_eq_cons_iff.mp widths
  obtain rfl := List.map_eq_nil_iff.mp empty
  rw [field_bytes_cons, field_bytes_nil, List.append_nil] at front
  have split_here : s.At (field.bytes ++ ahead.drop 4) := by
    rwa [front, List.take_append_drop]
  have fits_here := fits field (List.mem_cons_self ..)
  have taken := in_field split_here
  have behind := at_field split_here
  rw [Field.held_fits fits_here, word] at taken
  rw [word] at behind
  refine ⟨field.value, ?_, ?_, taken, behind⟩
  · rwa [unsigned_word word]
  · rw [unsigned_word word, front, List.take_append_drop]

theorem word_value {ahead : List UInt8} {value : Int} (fits : (Field.u32 value).Fits)
    (front : ahead = (Field.u32 value).bytes ++ ahead.drop 4) :
    (littleEndian (ahead.take 4) : Int) = value := by
  have word : ahead.take 4 = (Field.u32 value).bytes := by
    rw [front]
    exact List.take_left' (Field.bytes_length _)
  rw [word, Field.little_endian_bytes, Field.held_fits fits]
  rfl

/-- A number that has been read was there. -/
theorem word_read {s : ByteStream} {ahead : List UInt8} {value : Int} {behind : ByteStream}
    (here : s.At ahead) (taken : s.inUint 4 = some (value, behind)) :
    (Field.u32 value).Fits ∧ ahead = (Field.u32 value).bytes ++ ahead.drop 4 ∧ behind = s.skip 4 ∧
      behind.At (ahead.drop 4) := by
  by_cases room : 4 ≤ ahead.length
  · obtain ⟨found, fits, front, read, later⟩ := word_ahead here room
    rw [read] at taken
    obtain ⟨rfl, rfl⟩ := Prod.mk.inj (Option.some.inj taken)
    exact ⟨fits, front, rfl, later⟩
  · rw [in_uint_short here (by omega)] at taken
    cases taken

/-! ## Layouts -/

def layoutBytes (monitors : List LayoutMonitor) : List UInt8 :=
  fieldBytes (.u32 monitors.length :: monitors.flatMap fieldsOf)

/-- Layouts that the server goes by. -/
structure Valid (monitors : List LayoutMonitor) : Prop where
  fits : ∀ monitor ∈ monitors, MonitorFits monitor
  ok : ∀ monitor ∈ monitors, MonitorOk monitor
  few : monitors.length < 16
  acceptable : Acceptable (monitors.map monitorOf)

theorem to_int32_fits (value : Int) : SignedFits (toInt32 value) := by
  simp only [SignedFits, toInt32]
  omega

theorem monitor_words {monitor : LayoutMonitor} (fits : MonitorFits monitor) :
    Words (monitorOf monitor).toMonitorInfo :=
  ⟨fits.left, fits.top, to_int32_fits _, to_int32_fits _⟩

theorem monitors_words {monitors : List LayoutMonitor}
    (fits : ∀ monitor ∈ monitors, MonitorFits monitor) :
    ∀ mi ∈ monitors.map monitorOf, Words mi.toMonitorInfo :=
  List.forall_mem_map.mpr fun monitor member => monitor_words (fits monitor member)

theorem process_layout {s : ByteStream} {monitors : List LayoutMonitor} {rest : List UInt8}
    (here : s.At (layoutBytes monitors ++ rest)) (whole : s.stop = s.bytes.length)
    (valid : Valid monitors) :
    libxrdpProcessMonitorStream true s = some (.ok (describeMonitors (monitors.map monitorOf))) := by
  have few := valid.few
  have room : s.checkRem 4 = true := by
    apply (check_rem_iff here whole 4).mpr
    simp only [layoutBytes, List.length_append, field_bytes_length, List.map_cons, Field.u32,
      List.sum_cons]
    omega
  obtain ⟨count, ahead⟩ := in_next_field here
  have length : (Field.u32 monitors.length).held = monitors.length := by
    apply Field.held_fits
    simp only [Field.Fits, Field.u32]
    omega
  have taken := in_monitors ahead whole valid.fits valid.ok
  have described := (init_acceptable (monitors_words valid.fits)).mpr ⟨valid.acceptable, rfl⟩
  rw [length] at count
  simp only [Field.u32] at count taken
  have listed : ¬(clientMonitorDataMaximumMonitors : Int) ≤ monitors.length := by
    rw [clientMonitorDataMaximumMonitors]
    omega
  simp only [libxrdpProcessMonitorStream, room, Bool.not_true, Bool.false_eq_true, if_false,
    Option.bind_eq_bind, count, Option.bind_some, if_neg listed, Int.toNat_natCast, taken, Except.bind,
    described]

theorem layout_processed {s : ByteStream} {ahead : List UInt8} {description : FullDescription}
    (here : s.At ahead) (whole : s.stop = s.bytes.length)
    (accepted : libxrdpProcessMonitorStream true s = some (.ok description)) :
    ∃ (monitors : List LayoutMonitor) (rest : List UInt8), ahead = layoutBytes monitors ++ rest ∧
      Valid monitors ∧ describeMonitors (monitors.map monitorOf) = description := by
  by_cases room : s.checkRem 4 = true
  · obtain ⟨count, fits, front, taken, behind⟩ := word_ahead here ((check_rem_iff here whole 4).mp room)
    simp only [libxrdpProcessMonitorStream, room, Bool.not_true, Bool.false_eq_true, if_false,
      Option.bind_eq_bind, taken, Option.bind_some] at accepted
    by_cases many : (clientMonitorDataMaximumMonitors : Int) ≤ count
    · simp [many] at accepted
    · rw [if_neg many] at accepted
      simp only [Option.bind_eq_some_iff, Option.some.injEq] at accepted
      obtain ⟨result, monitors_read, initialised⟩ := accepted
      cases result with
      | error error => simp [Except.bind] at initialised
      | ok found =>
          obtain ⟨monitors, rest, listed, later, fits_all, ok, rfl⟩ :=
            monitors_taken behind whole monitors_read
          obtain ⟨acceptable, described⟩ := (init_acceptable (monitors_words fits_all)).mp initialised
          have positive := fits.1
          simp only [Field.u32] at positive
          have length : (monitors.length : Int) = count := by omega
          rw [clientMonitorDataMaximumMonitors] at many
          refine ⟨monitors, rest, ?_, ⟨fits_all, ok, by omega, acceptable⟩, described⟩
          rw [layoutBytes, field_bytes_cons, List.append_assoc, ← later, length]
          exact front
  · simp [libxrdpProcessMonitorStream, room] at accepted

/-! ## Messages -/

/-- A message on the display control channel. -/
def layoutMessage (msgType msgLength : Int) (monitors : List LayoutMonitor) : List UInt8 :=
  fieldBytes [.u32 msgType, .u32 msgLength, .u32 40] ++ layoutBytes monitors

variable {R : Type}

/-- What a message asks for. -/
def Requests (data : List UInt8) (monitors : List LayoutMonitor) : Prop :=
  ∃ msgType msgLength rest, (Field.u32 msgType).Fits ∧ (Field.u32 msgLength).Fits ∧
    (signed 4 msgType = displaycontrolPduTypeMonitorLayout ∨ signed 4 msgLength < 0) ∧
    data = layoutMessage msgType msgLength monitors ++ rest

theorem layout_requests {self : Mm R} {data : List UInt8} {monitors : List LayoutMonitor}
    (requested : Requests data monitors) (valid : Valid monitors)
    (listens : self.wm.clientInfo.suppressOutputMask .clientRequest = false) :
    dynamicMonitorData self data = some (0, addResizeRequestToQueue self .fromClient
      (describeMonitors (monitors.map monitorOf)).sizes) := by
  obtain ⟨msgType, msgLength, rest, type_fits, length_fits, layout, rfl⟩ := requested
  have here := at_of_bytes (layoutMessage msgType msgLength monitors ++ rest)
  have whole : (ofBytes (layoutMessage msgType msgLength monitors ++ rest)).stop =
    (ofBytes (layoutMessage msgType msgLength monitors ++ rest)).bytes.length := rfl
  generalize start : ofBytes (layoutMessage msgType msgLength monitors ++ rest) = s at here whole
  rw [layoutMessage, List.append_assoc] at here
  obtain ⟨first, here⟩ := in_next_field here
  obtain ⟨second, here⟩ := in_next_field here
  obtain ⟨third, here⟩ := in_next_field here
  rw [Field.held_fits type_fits] at first
  rw [Field.held_fits length_fits] at second
  have size : signed 4 (Field.u32 40).held = 40 := by decide
  rw [field_bytes_nil, List.nil_append] at here
  have processed := process_layout here whole valid
  simp only [Field.u32] at first second third size processed
  have goes_on : ¬(signed 4 msgType ≠ displaycontrolPduTypeMonitorLayout ∧ 0 ≤ signed 4 msgLength) := by
    omega
  simp only [dynamicMonitorData, listens, Bool.false_eq_true, if_false, start, Option.bind_eq_bind,
    first, second, third, Option.bind_some, if_neg goes_on, size, ne_eq, not_true_eq_false, processed,
    Option.map_some, requestLayout]

theorem requested_layout {self after : Mm R} {data : List UInt8} {code : Int}
    (processed : dynamicMonitorData self data = some (code, after)) :
    after = self ∨ self.wm.clientInfo.suppressOutputMask .clientRequest = false ∧
      ∃ monitors, Requests data monitors ∧ Valid monitors ∧ code = 0 ∧
        after = addResizeRequestToQueue self .fromClient
          (describeMonitors (monitors.map monitorOf)).sizes := by
  have whole : (ofBytes data).stop = (ofBytes data).bytes.length := rfl
  simp only [dynamicMonitorData] at processed
  split at processed
  · exact .inl (Prod.mk.inj (Option.some.inj processed)).2.symm
  · rename_i listens
    simp only [Option.bind_eq_bind, Option.bind_eq_some_iff] at processed
    obtain ⟨⟨msgType, s₁⟩, first, ⟨msgLength, s₂⟩, second, processed⟩ := processed
    obtain ⟨type_fits, type_front, rfl, here⟩ := word_read (at_of_bytes data) first
    obtain ⟨length_fits, length_front, rfl, here⟩ := word_read here second
    split at processed
    · exact .inl (Prod.mk.inj (Option.some.inj processed)).2.symm
    · rename_i goes_on
      simp only [Option.bind_eq_some_iff] at processed
      obtain ⟨⟨size, s₃⟩, third, processed⟩ := processed
      obtain ⟨size_fits, size_front, rfl, here⟩ := word_read here third
      split at processed
      · exact .inl (Prod.mk.inj (Option.some.inj processed)).2.symm
      · rename_i forty
        obtain ⟨result, parsed, processed⟩ := Option.map_eq_some_iff.mp processed
        cases result with
        | error error => exact .inl (Prod.mk.inj processed).2.symm
        | ok description =>
            obtain ⟨monitors, rest, layout, valid, rfl⟩ := layout_processed here whole parsed
            obtain ⟨rfl, rfl⟩ := Prod.mk.inj processed
            simp only [] at goes_on forty
            refine .inr ⟨eq_false_of_ne_true listens, monitors,
              ⟨msgType, msgLength, rest, type_fits, length_fits, by omega, ?_⟩, valid, rfl, rfl⟩
            have exactly_forty : size = 40 := by
              have word := not_not.mp forty
              simp only [Field.Fits, Field.u32] at size_fits
              unfold signed at word
              split at word
              · exact word
              · omega
            rw [layoutMessage, field_bytes_cons, field_bytes_cons, field_bytes_cons, field_bytes_nil,
              List.append_nil, List.append_assoc, List.append_assoc, List.append_assoc, ← layout,
              ← exactly_forty, ← size_front, ← length_front]
            exact type_front

theorem monitor_of_held {monitor other : LayoutMonitor} (fits : MonitorFits monitor)
    (also : MonitorFits other)
    (same : (fieldsOf monitor).map Field.held = (fieldsOf other).map Field.held) : monitor = other := by
  obtain ⟨flags, left, top, width, height, attributes⟩ := fits
  obtain ⟨flags', left', top', width', height', attributes'⟩ := also
  simp only [fieldsOf, List.map_cons, List.map_nil, List.cons.injEq, and_true] at same
  obtain ⟨same_flags, same_left, same_top, same_width, same_height, same_attributes⟩ := same
  have words : ∀ {value other : Int}, SignedFits value → SignedFits other →
      (Field.u32 value).held = (Field.u32 other).held → value = other := by
    intro value other fits also same
    rw [← signed_word fits, ← signed_word also, same]
  rw [Field.held_fits attributes.1, Field.held_fits attributes.2.1, Field.held_fits attributes.2.2.1,
    Field.held_fits attributes.2.2.2.1, Field.held_fits attributes.2.2.2.2, Field.held_fits attributes'.1,
    Field.held_fits attributes'.2.1, Field.held_fits attributes'.2.2.1,
    Field.held_fits attributes'.2.2.2.1, Field.held_fits attributes'.2.2.2.2] at same_attributes
  obtain ⟨same_physical_width, same_physical_height, same_orientation, same_desktop, same_device⟩ :=
    same_attributes
  cases monitor
  cases other
  simp only [LayoutMonitor.mk.injEq]
  exact ⟨words flags flags' same_flags, words left left' same_left, words top top' same_top,
    words width width' same_width, words height height' same_height, same_physical_width,
    same_physical_height, same_orientation, same_desktop, same_device⟩

theorem monitors_of_held {monitors others : List LayoutMonitor}
    (fits : ∀ monitor ∈ monitors, MonitorFits monitor) (also : ∀ monitor ∈ others, MonitorFits monitor)
    (length : monitors.length = others.length)
    (same : (monitors.flatMap fieldsOf).map Field.held = (others.flatMap fieldsOf).map Field.held) :
    monitors = others := by
  induction monitors generalizing others with
  | nil => exact (List.length_eq_zero_iff.mp length.symm).symm
  | cons monitor monitors ih =>
      cases others with
      | nil => cases length
      | cons other others =>
          obtain ⟨fits_here, fits_later⟩ := List.forall_mem_cons.mp fits
          obtain ⟨also_here, also_later⟩ := List.forall_mem_cons.mp also
          rw [List.flatMap_cons, List.flatMap_cons, List.map_append, List.map_append] at same
          obtain ⟨here, later⟩ := List.append_inj same rfl
          rw [monitor_of_held fits_here also_here here,
            ih fits_later also_later (Nat.succ.inj length) later]

theorem monitors_widths (monitors : List LayoutMonitor) :
    (monitors.flatMap fieldsOf).map Field.width =
      (List.replicate monitors.length (List.replicate 10 4)).flatten := by
  induction monitors with
  | nil => rfl
  | cons monitor monitors ih =>
      rw [List.flatMap_cons, List.map_append, ih]
      rfl

theorem layout_message_eq (msgType msgLength : Int) (monitors : List LayoutMonitor)
    (rest : List UInt8) : layoutMessage msgType msgLength monitors ++ rest =
      fieldBytes [.u32 msgType, .u32 msgLength, .u32 40, .u32 monitors.length] ++
        (fieldBytes (monitors.flatMap fieldsOf) ++ rest) := by
  simp only [layoutMessage, layoutBytes, field_bytes_cons, field_bytes_nil, List.append_nil,
    List.append_assoc]

/-- A message asks for one layout only. -/
theorem requests_unambiguous {data : List UInt8} {monitors others : List LayoutMonitor}
    (requested : Requests data monitors) (also : Requests data others) (valid : Valid monitors)
    (valid_others : Valid others) : monitors = others := by
  obtain ⟨msgType, msgLength, rest, -, -, -, rfl⟩ := requested
  obtain ⟨otherType, otherLength, more, -, -, -, same⟩ := also
  have few := valid.few
  have few_others := valid_others.few
  rw [layout_message_eq, layout_message_eq] at same
  obtain ⟨head, behind⟩ := field_bytes_inj (by rfl) same
  have length : monitors.length = others.length := by
    simp only [List.map_cons, List.cons.injEq, Field.held, Field.u32] at head
    omega
  have widths : (monitors.flatMap fieldsOf).map Field.width =
      (others.flatMap fieldsOf).map Field.width := by
    rw [monitors_widths, monitors_widths, length]
  obtain ⟨held, -⟩ := field_bytes_inj widths behind
  exact monitors_of_held valid.fits valid_others.fits length held

theorem suppressed_unheard {self : Mm R}
    (suppressed : self.wm.clientInfo.suppressOutputMask .clientRequest = true)
    (data : List UInt8) : dynamicMonitorData self data = some (0, self) := by
  rw [dynamicMonitorData, if_pos suppressed]

/-- While the client has output suppressed, its layouts are dropped. -/
theorem layout_accepted_exactly (self : Mm R) (data : List UInt8) :
    (∀ monitors, Requests data monitors → Valid monitors →
        dynamicMonitorData self data = some (0,
          if self.wm.clientInfo.suppressOutputMask .clientRequest then self
          else addResizeRequestToQueue self .fromClient
            (describeMonitors (monitors.map monitorOf)).sizes) ∧
        ∀ others, Requests data others → Valid others → monitors = others) ∧
      ∀ code after, dynamicMonitorData self data = some (code, after) →
        after = self ∨ self.wm.clientInfo.suppressOutputMask .clientRequest = false ∧
          ∃ monitors, Requests data monitors ∧ Valid monitors ∧ code = 0 ∧
            after = addResizeRequestToQueue self .fromClient
              (describeMonitors (monitors.map monitorOf)).sizes := by
  constructor
  · intro monitors requested valid
    refine ⟨?_, fun others also others_valid =>
      requests_unambiguous requested also valid others_valid⟩
    cases listens : self.wm.clientInfo.suppressOutputMask .clientRequest with
    | true => exact suppressed_unheard listens data
    | false => exact layout_requests requested valid listens
  · intro code after processed
    exact requested_layout processed

/-- One screen. -/
def oneScreen : LayoutMonitor where
  flags := 1
  left := 0
  top := 0
  width := 640
  height := 480
  physicalWidth := 300
  physicalHeight := 200
  orientation := 0
  desktopScaleFactor := 100
  deviceScaleFactor := 100

theorem one_screen_valid : Valid [oneScreen] := by
  refine ⟨?_, ?_, by decide, by decide, by decide, by decide⟩
  · intro monitor member
    obtain rfl := List.mem_singleton.mp member
    refine ⟨?_, ?_, ?_, ?_, ?_, ?_⟩
    all_goals
      simp only [SignedFits, Field.Fits, Field.u32, oneScreen]
      omega
  · intro monitor member
    obtain rfl := List.mem_singleton.mp member
    decide

theorem one_screen_requested : Requests (layoutMessage 2 56 [oneScreen]) [oneScreen] := by
  refine ⟨2, 56, [], ?_, ?_, .inl (by decide), by simp⟩
  all_goals
    simp only [Field.Fits, Field.u32]
    omega

theorem layout_accepted_exactly_one :
    dynamicMonitorData (MmSession.startedSession 1 false) (layoutMessage 2 56 [oneScreen]) =
      some (0, addResizeRequestToQueue (MmSession.startedSession 1 false) .fromClient
        (describeMonitors [monitorOf oneScreen]).sizes) :=
  ((layout_accepted_exactly _ _).1 [oneScreen] one_screen_requested one_screen_valid).1

/-! ## Short messages -/

/-- Monitors are counted before they are read. -/
theorem monitors_inside {s : ByteStream} {ahead : List UInt8} (here : s.At ahead)
    (whole : s.stop = s.bytes.length) (count : Nat) : ∃ result, inMonitors true count s = some result := by
  induction count generalizing s ahead with
  | zero => exact ⟨_, rfl⟩
  | succ count ih =>
      by_cases room : s.checkRem 40 = true
      · have long := (check_rem_iff here whole 40).mp room
        obtain ⟨monitor, fits, front⟩ := @monitor_of_bytes (ahead.take 40) (by
          rw [List.length_take]
          omega)
        have split_here : s.At (fieldBytes (fieldsOf monitor) ++ ahead.drop 40) := by
          rwa [front, List.take_append_drop]
        obtain ⟨behind, taken, after⟩ := in_monitor_layout split_here fits
        simp only [inMonitors, if_true, room, Bool.not_true, Bool.false_eq_true, if_false,
          Option.bind_eq_bind, taken, Option.bind_some]
        by_cases ok : MonitorOk monitor
        · obtain ⟨rfl, later⟩ := after ok
          obtain ⟨result, read⟩ := ih later whole
          rw [if_pos ok]
          simp only [read, Option.bind_some]
          exact ⟨_, rfl⟩
        · rw [if_neg ok]
          exact ⟨_, rfl⟩
      · exact ⟨.error .err, by simp [inMonitors, room]⟩

theorem stream_inside {s : ByteStream} {ahead : List UInt8} (here : s.At ahead)
    (whole : s.stop = s.bytes.length) :
    ∃ result, libxrdpProcessMonitorStream true s = some result := by
  by_cases room : s.checkRem 4 = true
  · obtain ⟨count, fits, front, taken, behind⟩ := word_ahead here ((check_rem_iff here whole 4).mp room)
    simp only [libxrdpProcessMonitorStream, room, Bool.not_true, Bool.false_eq_true, if_false,
      Option.bind_eq_bind, taken, Option.bind_some]
    split
    · exact ⟨_, rfl⟩
    · obtain ⟨result, read⟩ := monitors_inside behind whole count.toNat
      simp only [read, Option.bind_some]
      exact ⟨_, rfl⟩
  · exact ⟨.error .err, by simp [libxrdpProcessMonitorStream, room]⟩

/-- The message goes on to the size of its monitors. -/
def GoesOn (data : List UInt8) : Prop :=
  signed 4 (littleEndian (data.take 4)) = displaycontrolPduTypeMonitorLayout ∨
    signed 4 (littleEndian ((data.drop 4).take 4)) < 0

theorem short_outside {self : Mm R} {data : List UInt8}
    (listens : self.wm.clientInfo.suppressOutputMask .clientRequest = false) :
    dynamicMonitorData self data = none ↔ data.length < 8 ∨ data.length < 12 ∧ GoesOn data := by
  have start := at_of_bytes data
  have whole : (ofBytes data).stop = (ofBytes data).bytes.length := rfl
  unfold GoesOn
  by_cases first_room : 4 ≤ data.length
  · obtain ⟨msgType, type_fits, type_front, first, here⟩ := word_ahead start first_room
    rw [word_value type_fits type_front]
    by_cases second_room : 4 ≤ (data.drop 4).length
    · obtain ⟨msgLength, length_fits, length_front, second, behind⟩ := word_ahead here second_room
      rw [word_value length_fits length_front]
      rw [List.length_drop] at second_room
      simp only [dynamicMonitorData, listens, Bool.false_eq_true, if_false, Option.bind_eq_bind, first,
        second, Option.bind_some]
      by_cases ignored : signed 4 msgType ≠ displaycontrolPduTypeMonitorLayout ∧ 0 ≤ signed 4 msgLength
      · rw [if_pos ignored]
        simp only [reduceCtorEq, false_iff]
        omega
      · rw [if_neg ignored]
        by_cases third_room : 4 ≤ ((data.drop 4).drop 4).length
        · obtain ⟨size, -, -, third, after⟩ := word_ahead behind third_room
          rw [List.length_drop, List.length_drop] at third_room
          obtain ⟨result, processed⟩ := stream_inside after whole
          have inside : (if signed 4 size ≠ 40 then some (1, self)
              else some (requestLayout self result)) ≠ none := by
            split
            · exact Option.some_ne_none _
            · exact Option.some_ne_none _
          simp only [third, Option.bind_some, processed, Option.map_some, inside, false_iff]
          omega
        · have short := in_uint_short behind (Nat.lt_of_not_le third_room)
          rw [List.length_drop, List.length_drop] at third_room
          simp only [short, Option.bind_none, true_iff]
          omega
    · have short := in_uint_short here (Nat.lt_of_not_le second_room)
      rw [List.length_drop] at second_room
      simp only [dynamicMonitorData, listens, Bool.false_eq_true, if_false, Option.bind_eq_bind, first,
        Option.bind_some, short, Option.bind_none, true_iff]
      omega
  · have short := in_uint_short start (Nat.lt_of_not_le first_room)
    simp only [dynamicMonitorData, listens, Bool.false_eq_true, if_false, Option.bind_eq_bind, short,
      Option.bind_none, true_iff]
    omega

/-- The numbers in front are read without looking at the length of the message, where it is
looked at at all. -/
theorem layout_outside_iff (self : Mm R) (data : List UInt8) :
    dynamicMonitorData self data = none ↔
      self.wm.clientInfo.suppressOutputMask .clientRequest = false ∧
        (data.length < 8 ∨ data.length < 12 ∧ GoesOn data) := by
  cases listens : self.wm.clientInfo.suppressOutputMask .clientRequest with
  | true => simp [suppressed_unheard listens data]
  | false => simpa using short_outside listens

theorem layout_outside_two : dynamicMonitorData (MmSession.startedSession 1 false) [2, 0] = none :=
  (layout_outside_iff _ _).mpr ⟨rfl, .inl (by decide)⟩

end XrdpConsole.LayoutMessages
