import XrdpConsole.LayoutMessages
import XrdpConsole.ResizeQueue

/-!
# Sessions that are resized by what arrives

The events of a session where resizes are asked for by messages of the client and by the module, and
not by descriptions from nowhere. Such a session is one of the connection manager, and the
descriptions it goes by are ones of monitors inside of the desktop.
-/

namespace XrdpConsole.LayoutSession

open XrdpConsole.Library
open XrdpConsole.Region
open XrdpConsole.VncState
open XrdpConsole.MmState
open XrdpConsole.ResizeMachine
open XrdpConsole.MmSession
open XrdpConsole.ResizeQueue
open XrdpConsole.MonitorLayout
open XrdpConsole.MonitorDescriptions
open XrdpConsole.LayoutMessages

set_option autoImplicit false

variable {R : Type} [Pixman R]

/-! ## Descriptions in force -/

/-- A description of some monitors, all of them inside of the desktop they make. -/
structure Placed (description : DisplaySizeDescription) : Prop where
  count : 1 ≤ description.minfo.length ∧ description.minfo.length ≤ 16
  width : 200 ≤ description.sessionWidth ∧ description.sessionWidth ≤ 32766
  height : 200 ≤ description.sessionHeight ∧ description.sessionHeight ≤ 32766
  words : ∀ mi ∈ description.minfo, Words mi
  extent : let bounds := encompassingBounds description.minfo
    description.sessionWidth = bounds.right - bounds.left + 1 ∧
      description.sessionHeight = bounds.bottom - bounds.top + 1
  moved : description.minfoWm = description.minfo.map fun mi =>
    let bounds := encompassingBounds description.minfo
    { left := mi.left - bounds.left
      top := mi.top - bounds.top
      right := mi.right - bounds.left
      bottom := mi.bottom - bounds.top }
  inside : ∀ mi ∈ description.minfoWm,
    InSession description.sessionWidth description.sessionHeight mi

theorem placed_formed {description : DisplaySizeDescription} (placed : Placed description) :
    WellFormed description := by
  have listed := placed.count.1
  constructor
  · rw [placed.moved]
    intro empty
    rw [List.map_eq_nil_iff.mp empty] at listed
    exact absurd listed (by decide)
  · intro mi member
    have inside := placed.inside mi member
    exact ⟨inside.1.1, inside.2.1, inside.1.2.2, inside.2.2.2⟩

/-- A difference that fits is not cut down. -/
theorem to_int32_same {value : Int} (fits : EgfxRoundTrip.SignedFits value) : toInt32 value = value := by
  simp only [EgfxRoundTrip.SignedFits, toInt32] at *
  omega

theorem described_placed {monitors : List FullMonitorInfo}
    (words : ∀ mi ∈ monitors, Words mi.toMonitorInfo) (acceptable : Acceptable monitors)
    (ordered : ∀ mi ∈ monitors, Ordered mi.toMonitorInfo) :
    Placed (describeMonitors monitors).sizes := by
  have places := minfo_places monitors
  have bounds : encompassingBounds (describeMonitors monitors).sizes.minfo = desktop monitors := by
    rw [desktop, ← places]
    rfl
  have width : (describeMonitors monitors).sizes.sessionWidth =
    (desktop monitors).right - (desktop monitors).left + 1 := session_extent acceptable.width
  have height : (describeMonitors monitors).sizes.sessionHeight =
    (desktop monitors).bottom - (desktop monitors).top + 1 := session_extent acceptable.height
  have inside := (wm_in_session words acceptable).mpr ordered
  constructor
  · have length : (describeMonitors monitors).sizes.minfo.length = monitors.length := by
      rw [FullDescription.sizes, places, List.length_map]
    rw [length]
    exact acceptable.count
  · rw [width]
    exact acceptable.width
  · rw [height]
    exact acceptable.height
  · change ∀ mi ∈ (describeMonitors monitors).minfo.map (·.toMonitorInfo), Words mi
    rw [places]
    exact List.forall_mem_map.mpr words
  · rw [bounds]
    exact ⟨width, height⟩
  · rw [bounds]
    change (describeMonitors monitors).minfoWm.map (·.toMonitorInfo) =
      ((describeMonitors monitors).minfo.map (·.toMonitorInfo)).map _
    rw [wm_places, places, List.map_map]
    apply List.map_congr_left
    intro mi member
    have in_order := ordered mi member
    have contained : (boundsOf mi.toMonitorInfo).Inside (desktop monitors) :=
      bounds_contain (List.mem_map_of_mem member)
    have narrow := acceptable.width
    have low := acceptable.height
    simp only [Rect.Inside, boundsOf, Ordered] at contained in_order
    have fits : ∀ value : Int, 0 ≤ value ∧ value ≤ 32766 → toInt32 value = value := by
      intro value small
      apply to_int32_same
      simp only [EgfxRoundTrip.SignedFits]
      omega
    simp only [Function.comp_apply, movePlace, MonitorInfo.mk.injEq]
    exact ⟨fits _ (by omega), fits _ (by omega), fits _ (by omega), fits _ (by omega)⟩
  · exact List.forall_mem_map.mpr inside

/-! ## The session -/

/-- What the session is told. -/
inductive Input where
  | layout (data : List UInt8)
  | monitors (mode : ClientResizeMode) (monitors : List FullMonitorInfo)
  | drdynvcUp
  | event (event : Event)

/-- A layout that is read outside of its message has no outcome. -/
inductive Takes (before : Mm R) : Input → Mm R → Prop where
  | layout (data : List UInt8) (code : Int) (after : Mm R) :
      dynamicMonitorData before data = some (code, after) → Takes before (.layout data) after
  | monitors (mode : ClientResizeMode) (monitors : List FullMonitorInfo) :
      Takes before (.monitors mode monitors) (clientMonitorResize before mode monitors).2
  | drdynvcUp : Takes before .drdynvcUp (markDrdynvcUp before)
  | event (event : Event) : requestOf event = none → (event = .beginUpdate → before.painter = none) →
      Takes before (.event event) (runEvent before event)

def layoutSession : System (Mm R) Input where
  initial := Started
  step before input after := Takes before input after

/-- The right and bottom edges are numbers that an `int` holds. -/
def EdgesFit (monitor : LayoutMonitor) : Prop :=
  monitor.left + monitor.width ≤ 2 ^ 31 ∧ monitor.top + monitor.height ≤ 2 ^ 31

/-- No edge of a monitor is cut down to 32 bits, and the module asks for rectangles. -/
def Whole (_ : Mm R) : Input → Prop
  | .layout data => ∀ monitors, Requests data monitors → Valid monitors →
      ∀ monitor ∈ monitors, EdgesFit monitor
  | .monitors _ monitors =>
      ∀ mi ∈ monitors, Words mi.toMonitorInfo ∧ Ordered mi.toMonitorInfo
  | _ => True

theorem edges_ordered {monitor : LayoutMonitor} (fits : MonitorFits monitor) (ok : MonitorOk monitor) :
    Ordered (monitorOf monitor).toMonitorInfo ↔ EdgesFit monitor := by
  obtain ⟨flags, left, top, width, height, attributes⟩ := fits
  simp only [MonitorOk, MonitorWidthOk, MonitorHeightOk, clientMonitorDataMinimumVirtualMonitorWidth,
    clientMonitorDataMaximumVirtualMonitorWidth, clientMonitorDataMinimumVirtualMonitorHeight,
    clientMonitorDataMaximumVirtualMonitorHeight] at ok
  simp only [EgfxRoundTrip.SignedFits] at left top
  simp only [Ordered, monitorOf, EdgesFit, toInt32]
  omega

/-- What became of an input: nothing, or an event of the connection manager. -/
inductive Became (before after : Mm R) : Prop where
  | nothing : after = before → Became before after
  | event (event : Event) : Permitted before event →
      (∀ item, requestOf event = some item → HasSize item.description → Placed item.description) →
      after = runEvent before event → Became before after

theorem became_request (before : Mm R) (src : ResizeQueueSource) {description : DisplaySizeDescription}
    (placed : Placed description) :
    Became before (addResizeRequestToQueue before src description) := by
  apply Became.event (.resizeRequest src description) (fun _ => placed_formed placed) _ rfl
  rintro item ⟨⟩ -
  exact placed

theorem resize_became {before : Mm R} {mode : ClientResizeMode} {monitors : List FullMonitorInfo}
    (words : ∀ mi ∈ monitors, Words mi.toMonitorInfo)
    (ordered : ∀ mi ∈ monitors, Ordered mi.toMonitorInfo) :
    Became before (clientMonitorResize before mode monitors).2 := by
  unfold clientMonitorResize
  split
  · exact .nothing rfl
  · split
    · exact .nothing rfl
    · cases initialised : libxrdpInitDisplaySizeDescription monitors with
      | error error => exact .nothing rfl
      | ok description =>
          obtain ⟨acceptable, rfl⟩ := (init_acceptable words).mp initialised
          exact became_request before .fromServer (described_placed words acceptable ordered)

theorem takes_became {before after : Mm R} {input : Input} (whole : Whole before input)
    (takes : Takes before input after) : Became before after := by
  cases takes with
  | layout data code after processed =>
      rcases requested_layout processed with same | ⟨-, monitors, requests, valid, -, rfl⟩
      · exact .nothing same
      · have ordered : ∀ mi ∈ monitors.map monitorOf, Ordered mi.toMonitorInfo := by
          intro mi member
          obtain ⟨monitor, listed, rfl⟩ := List.mem_map.mp member
          exact (edges_ordered (valid.fits monitor listed) (valid.ok monitor listed)).mpr
            (whole monitors requests valid monitor listed)
        exact became_request before .fromClient
          (described_placed (monitors_words valid.fits) valid.acceptable ordered)
  | monitors mode monitors =>
      exact resize_became (fun mi member => (whole mi member).1) fun mi member => (whole mi member).2
  | drdynvcUp =>
      apply Became.event (.resizeRequest .ignoreMarker _) _ _ rfl
      · intro sized
        exact absurd sized.1 (by decide)
      · rintro item ⟨⟩ sized
        exact absurd sized.1 (by decide)
  | event event quiet nested =>
      apply Became.event event _ _ rfl
      · cases event with
        | beginUpdate => exact nested rfl
        | resizeRequest src description => cases quiet
        | _ => trivial
      · intro item requested
        rw [quiet] at requested
        cases requested

/-! ## Whole runs -/

/-- The sizes in force are those of the start or placed, as are those to come. -/
structure Held (first : DisplaySizeDescription) (mm : Mm R) : Prop where
  queued : ∀ item ∈ mm.resizeQueue, HasSize item.description → Placed item.description
  active : ∀ resize, mm.resizeData = some resize → Placed resize.description
  sizes : displaySizes mm = first ∨ Placed (displaySizes mm)

omit [Pixman R] in
theorem held_step {first : DisplaySizeDescription} {before after : Mm R} {event : Event}
    (held : Held first before) (step : QueueStep before event after)
    (asked : ∀ item, requestOf event = some item → HasSize item.description →
      Placed item.description) : Held first after := by
  cases step with
  | kept _ _ _ queue resize sizes =>
      refine ⟨?_, ?_, ?_⟩
      · rw [queue]
        exact held.queued
      · rw [resize]
        exact held.active
      · rw [sizes]
        exact held.sizes
  | requested src description _ _ queue resize sizes =>
      refine ⟨?_, ?_, ?_⟩
      · rw [queue]
        intro item member
        rcases List.mem_append.mp member with earlier | new
        · exact held.queued item earlier
        · obtain rfl := List.mem_singleton.mp new
          exact asked _ rfl
      · rw [resize]
        exact held.active
      · rw [sizes]
        exact held.sizes
  | superseded earlier prev description _ queue _ later resize sizes =>
      refine ⟨?_, ?_, ?_⟩
      · rw [later]
        intro item member
        rcases List.mem_append.mp member with kept | new
        · exact held.queued item (queue ▸ List.mem_append_left _ kept)
        · obtain rfl := List.mem_singleton.mp new
          exact asked _ rfl
      · rw [resize]
        exact held.active
      · rw [sizes]
        exact held.sizes
  | started answers head rest _ _ queue sized _ later resize sizes =>
      refine ⟨?_, ?_, ?_⟩
      · rw [later]
        intro item member
        exact held.queued item (queue ▸ List.mem_cons_of_mem _ member)
      · intro active same
        rw [resize] at same
        obtain rfl := Option.some.inj same
        exact held.queued head (queue ▸ List.mem_cons_self ..) sized
      · rw [sizes]
        exact held.sizes
  | dropped answers head rest _ _ queue _ later resize sizes =>
      refine ⟨?_, ?_, ?_⟩
      · rw [later]
        intro item member
        exact held.queued item (queue ▸ List.mem_cons_of_mem _ member)
      · intro active same
        rw [resize] at same
        cases same
      · rw [sizes]
        exact held.sizes
  | advanced _ resize state _ _ active queue later follow =>
      refine ⟨?_, ?_, ?_⟩
      · rw [queue]
        exact held.queued
      · intro other same
        rw [later] at same
        obtain rfl := Option.some.inj same
        exact held.active resize active
      · rcases follow with ⟨same, -⟩ | taken
        · rw [same]
          exact held.sizes
        · rw [taken]
          exact .inr (held.active resize active)
  | cleared answers resize _ _ _ queue later sizes =>
      refine ⟨?_, ?_, ?_⟩
      · rw [queue]
        exact held.queued
      · intro active same
        rw [later] at same
        cases same
      · rw [sizes]
        exact held.sizes

theorem layouts_placed {start final : Mm R} {inputs : List Input} (started : Started start)
    (ran : (layoutSession.restrict Whole).Run start inputs final) :
    (∃ events, session.Run start events final) ∧ Held (displaySizes start) final := by
  induction ran with
  | stay =>
      refine ⟨⟨[], .stay start⟩, ?_, ?_, .inl rfl⟩
      · intro item member
        rw [started.resizeQueue] at member
        cases member
      · intro resize active
        rw [started.resizeData] at active
        cases active
  | next _ stepped ih =>
      obtain ⟨⟨events, earlier⟩, held⟩ := ih
      cases takes_became stepped.1 stepped.2 with
      | nothing same =>
          rw [same]
          exact ⟨⟨events, earlier⟩, held⟩
      | event event permitted asked same =>
          rw [same]
          exact ⟨⟨events ++ [event], .next earlier ⟨permitted, rfl⟩⟩,
            held_step held (queue_step _ event) asked⟩

/-- One screen is asked for. -/
theorem one_screen_whole :
    Whole (startedSession 1 false) (.layout (layoutMessage 2 56 [oneScreen])) := by
  intro monitors requested valid monitor member
  obtain rfl := requests_unambiguous requested one_screen_requested valid one_screen_valid
  obtain rfl := List.mem_singleton.mp member
  simp only [EdgesFit, oneScreen]
  omega

theorem one_screen_taken : Takes (startedSession 1 false) (.layout (layoutMessage 2 56 [oneScreen]))
    (addResizeRequestToQueue (startedSession 1 false) .fromClient
      (describeMonitors [monitorOf oneScreen]).sizes) :=
  .layout _ 0 _ (layout_requests one_screen_requested one_screen_valid rfl)

theorem layouts_placed_one :
    Held (displaySizes (startedSession 1 false)) (addResizeRequestToQueue (startedSession 1 false)
      .fromClient (describeMonitors [monitorOf oneScreen]).sizes) :=
  (layouts_placed (started_session 1 false)
    (System.run_after ⟨one_screen_whole, one_screen_taken⟩ (.stay _))).2

end XrdpConsole.LayoutSession
