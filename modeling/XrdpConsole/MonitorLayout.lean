import XrdpConsole.Library.ByteStream
import XrdpConsole.Library.Enclosure
import XrdpConsole.MmSession

/-!
# Monitor layouts

Where the size descriptions of a session come from: `libxrdp_process_monitor_stream` and
`libxrdp_init_display_size_description` (`libxrdp/libxrdp.c`), and their callers for the layouts that
the client and the module ask for (`xrdp/xrdp_mm.c`). Numbers are as C leaves them in their 32 bits.
-/

namespace XrdpConsole.MonitorLayout

open XrdpConsole.Library
open XrdpConsole.Region
open XrdpConsole.VncState
open XrdpConsole.MmState
open XrdpConsole.ResizeMachine

set_option autoImplicit false

/-! ## Monitors -/

/-- All of `struct monitor_info`. -/
structure FullMonitorInfo extends MonitorInfo where
  flags : Int
  physicalWidth : Int
  physicalHeight : Int
  orientation : Int
  desktopScaleFactor : Int
  deviceScaleFactor : Int
  isPrimary : Int
  deriving DecidableEq, Repr

/-- All of `struct display_size_description`. -/
structure FullDescription where
  minfo : List FullMonitorInfo
  minfoWm : List FullMonitorInfo
  sessionWidth : Int
  sessionHeight : Int
  deriving DecidableEq, Repr

/-- What the connection manager looks at. -/
def FullDescription.sizes (self : FullDescription) : DisplaySizeDescription where
  minfo := self.minfo.map (·.toMonitorInfo)
  minfoWm := self.minfoWm.map (·.toMonitorInfo)
  sessionWidth := self.sessionWidth
  sessionHeight := self.sessionHeight

/-- `SEC_PROCESS_MONITORS_ERR` and the codes that follow it. -/
inductive MonitorsError where
  | err
  | tooManyMonitors
  | invalidDesktop
  | invalidMonitor
  deriving DecidableEq, Repr

def MonitorsError.code : MonitorsError → Int
  | .err => 1
  | .tooManyMonitors => 2
  | .invalidDesktop => 3
  | .invalidMonitor => 4

def clientMonitorDataMinimumVirtualDesktopWidth : Int := 0xC8
def clientMonitorDataMinimumVirtualDesktopHeight : Int := 0xC8
def clientMonitorDataMinimumVirtualMonitorWidth : Int := 0xC8
def clientMonitorDataMinimumVirtualMonitorHeight : Int := 0xC8
def clientMonitorDataMaximumVirtualMonitorWidth : Int := 0x2000
def clientMonitorDataMaximumVirtualMonitorHeight : Int := 0x2000

def tsMonitorPrimary : Int := 1
def displaycontrolMonitorPrimary : Int := 1
def displaycontrolPduTypeMonitorLayout : Int := 2

def orientations : List Int := [0, 90, 180, 270]
def deviceScaleFactors : List Int := [100, 140, 180]

/-! ## Attributes -/

/-- Where either physical size is out of range, both are ignored. -/
def sanitisePhysicalSize (size : Int) (monitorLayout : FullMonitorInfo) : FullMonitorInfo :=
  if 10000 < size ∨ size < 10 then
    { monitorLayout with physicalWidth := 0, physicalHeight := 0 }
  else monitorLayout

def sanitiseOrientation (monitorLayout : FullMonitorInfo) : FullMonitorInfo :=
  if monitorLayout.orientation ∈ orientations then monitorLayout
  else { monitorLayout with orientation := 0 }

def sanitiseScaleFactors (monitorLayout : FullMonitorInfo) : FullMonitorInfo :=
  let checkDesktopScaleFactor :=
    monitorLayout.desktopScaleFactor < 100 ∨ 500 < monitorLayout.desktopScaleFactor
  let checkDeviceScaleFactor := monitorLayout.deviceScaleFactor ∉ deviceScaleFactors
  if checkDesktopScaleFactor ∨ checkDeviceScaleFactor then
    { monitorLayout with desktopScaleFactor := 100, deviceScaleFactor := 100 }
  else monitorLayout

def sanitiseExtendedMonitorAttributes (monitorLayout : FullMonitorInfo) : FullMonitorInfo :=
  -- the test looks at the width twice, so the height stays as it is
  if monitorLayout.physicalWidth = 0 ∧ monitorLayout.physicalWidth = 0 ∧
      monitorLayout.orientation = 0 ∧ monitorLayout.desktopScaleFactor = 0 ∧
      monitorLayout.deviceScaleFactor = 0 then
    { monitorLayout with orientation := 0, desktopScaleFactor := 100, deviceScaleFactor := 100 }
  else
    let monitorLayout := sanitisePhysicalSize monitorLayout.physicalWidth monitorLayout
    let monitorLayout := sanitisePhysicalSize monitorLayout.physicalHeight monitorLayout
    sanitiseScaleFactors (sanitiseOrientation monitorLayout)

/-! ## Descriptions -/

def boundsOf (mi : MonitorInfo) : Rect where
  left := mi.left
  top := mi.top
  right := mi.right
  bottom := mi.bottom

/-- `all_monitors_encompassing_bounds`. -/
def encompassingBounds : List MonitorInfo → Rect
  | [] => { left := 0, top := 0, right := 0, bottom := 0 }
  | first :: rest => Rect.enclosing (boundsOf first) (rest.map boundsOf)

/-- Only the first of the primary monitors stays one; the flag is `got_primary`. -/
def keepOnePrimary (gotPrimary : Bool) : List FullMonitorInfo → Bool × List FullMonitorInfo
  | [] => (gotPrimary, [])
  | mi :: rest =>
      if mi.isPrimary = tsMonitorPrimary then
        let later := keepOnePrimary true rest
        (later.1, (if gotPrimary then { mi with isPrimary := 0 } else mi) :: later.2)
      else
        let later := keepOnePrimary gotPrimary rest
        (later.1, mi :: later.2)

def AtCorner (bounds : Rect) (mi : FullMonitorInfo) : Prop :=
  mi.left = bounds.left ∧ mi.top = bounds.top

instance (bounds : Rect) (mi : FullMonitorInfo) : Decidable (AtCorner bounds mi) :=
  inferInstanceAs (Decidable (_ ∧ _))

/-- The first monitor at the top left corner of the bounds becomes the primary one. -/
def choosePrimary (bounds : Rect) : List FullMonitorInfo → List FullMonitorInfo
  | [] => []
  | mi :: rest =>
      if AtCorner bounds mi then { mi with isPrimary := tsMonitorPrimary } :: rest
      else mi :: choosePrimary bounds rest

/-- A `session_width` or `session_height`, which are unsigned. -/
def sessionExtent (low high : Int) : Int := (high - low + 1) % 2 ^ 32

/-- The monitor where the desktop begins at 0, 0. -/
def movePlace (bounds : Rect) (mi : MonitorInfo) : MonitorInfo where
  left := toInt32 (mi.left - bounds.left)
  top := toInt32 (mi.top - bounds.top)
  right := toInt32 (mi.right - bounds.left)
  bottom := toInt32 (mi.bottom - bounds.top)

def moveMonitor (bounds : Rect) (mi : FullMonitorInfo) : FullMonitorInfo :=
  { mi with toMonitorInfo := movePlace bounds mi.toMonitorInfo }

def primaryMonitors (bounds : Rect) (monitors : List FullMonitorInfo) : List FullMonitorInfo :=
  let kept := keepOnePrimary false monitors
  if kept.1 then kept.2 else choosePrimary bounds kept.2

def DesktopSizeOk (width height : Int) : Prop :=
  (clientMonitorDataMinimumVirtualDesktopWidth ≤ width ∧
      width ≤ clientMonitorDataMaximumVirtualDesktopWidth) ∧
    clientMonitorDataMinimumVirtualDesktopHeight ≤ height ∧
      height ≤ clientMonitorDataMaximumVirtualDesktopHeight

instance (width height : Int) : Decidable (DesktopSizeOk width height) :=
  inferInstanceAs (Decidable (_ ∧ _))

/-- The description where none of the checks fails. -/
def describeMonitors (monitors : List FullMonitorInfo) : FullDescription :=
  let bounds := encompassingBounds (monitors.map (·.toMonitorInfo))
  let minfo := primaryMonitors bounds (monitors.map sanitiseExtendedMonitorAttributes)
  { minfo
    minfoWm := minfo.map (moveMonitor bounds)
    sessionWidth := sessionExtent bounds.left bounds.right
    sessionHeight := sessionExtent bounds.top bounds.bottom }

def libxrdpInitDisplaySizeDescription (monitors : List FullMonitorInfo) :
    Except MonitorsError FullDescription :=
  let description := describeMonitors monitors
  if clientMonitorDataMaximumMonitors < monitors.length then .error .tooManyMonitors
  else if ¬(encompassingBounds (monitors.map (·.toMonitorInfo))).Solid then .error .invalidDesktop
  else if ¬DesktopSizeOk description.sessionWidth description.sessionHeight then
    .error .invalidDesktop
  else .ok description

/-! ## Streams -/

/-- A `TS_MONITOR_DEF`, in a stream without full parameters. -/
def inMonitorDef (s : ByteStream) : Option (Except MonitorsError FullMonitorInfo × ByteStream) := do
  let (left, s) ← s.inUint 4
  let (top, s) ← s.inUint 4
  let (right, s) ← s.inUint 4
  let (bottom, s) ← s.inUint 4
  let (isPrimary, s) ← s.inUint 4
  some (.ok {
    left := signed 4 left
    top := signed 4 top
    right := signed 4 right
    bottom := signed 4 bottom
    flags := 0
    physicalWidth := 0
    physicalHeight := 0
    orientation := 0
    desktopScaleFactor := 0
    deviceScaleFactor := 0
    isPrimary := isPrimary }, s)

def MonitorWidthOk (width : Int) : Prop :=
  clientMonitorDataMinimumVirtualMonitorWidth ≤ width ∧
    width ≤ clientMonitorDataMaximumVirtualMonitorWidth ∧ width % 2 = 0

def MonitorHeightOk (height : Int) : Prop :=
  clientMonitorDataMinimumVirtualMonitorHeight ≤ height ∧
    height ≤ clientMonitorDataMaximumVirtualMonitorHeight

instance (width : Int) : Decidable (MonitorWidthOk width) := inferInstanceAs (Decidable (_ ∧ _))

instance (height : Int) : Decidable (MonitorHeightOk height) := inferInstanceAs (Decidable (_ ∧ _))

/-- A `DISPLAYCONTROL_MONITOR_LAYOUT`. -/
def inMonitorLayout (s : ByteStream) :
    Option (Except MonitorsError FullMonitorInfo × ByteStream) := do
  let (flags, s) ← s.inUint 4
  let (left, s) ← s.inUint 4
  let (top, s) ← s.inUint 4
  let (width, s) ← s.inUint 4
  if ¬MonitorWidthOk (signed 4 width) then some (.error .invalidMonitor, s)
  else do
    let (height, s) ← s.inUint 4
    if ¬MonitorHeightOk (signed 4 height) then some (.error .invalidMonitor, s)
    else do
      let (physicalWidth, s) ← s.inUint 4
      let (physicalHeight, s) ← s.inUint 4
      let (orientation, s) ← s.inUint 4
      let (desktopScaleFactor, s) ← s.inUint 4
      let (deviceScaleFactor, s) ← s.inUint 4
      some (.ok {
        left := signed 4 left
        top := signed 4 top
        right := toInt32 (signed 4 left + signed 4 width - 1)
        bottom := toInt32 (signed 4 top + signed 4 height - 1)
        flags := signed 4 flags
        physicalWidth := physicalWidth
        physicalHeight := physicalHeight
        orientation := orientation
        desktopScaleFactor := desktopScaleFactor
        deviceScaleFactor := deviceScaleFactor
        isPrimary := if signed 4 flags = displaycontrolMonitorPrimary then tsMonitorPrimary else 0 }, s)

def inMonitors (fullParameters : Bool) :
    Nat → ByteStream → Option (Except MonitorsError (List FullMonitorInfo))
  | 0, _ => some (.ok [])
  | left + 1, s =>
      if !s.checkRem (if fullParameters then 40 else 20) then some (.error .err)
      else do
        let (monitor, s) ← if fullParameters then inMonitorLayout s else inMonitorDef s
        match monitor with
        | .error error => some (.error error)
        | .ok monitorLayout =>
            let later ← inMonitors fullParameters left s
            some (later.map (monitorLayout :: ·))

/-- No value where the stream is read outside of its bytes. -/
def libxrdpProcessMonitorStream (fullParameters : Bool) (s : ByteStream) :
    Option (Except MonitorsError FullDescription) :=
  if !s.checkRem 4 then some (.error .err)
  else do
    let (numMonitor, s) ← s.inUint 4
    if clientMonitorDataMaximumMonitors ≤ numMonitor then some (.error .tooManyMonitors)
    else do
      let monitors ← inMonitors fullParameters numMonitor.toNat s
      some (monitors.bind libxrdpInitDisplaySizeDescription)

/-! ## Requests -/

variable {R : Type}

def requestLayout (self : Mm R) : Except MonitorsError FullDescription → Int × Mm R
  | .error error => (error.code, self)
  | .ok description => (0, addResizeRequestToQueue self .fromClient description.sizes)

/-- A message on the display control channel, with the error code that is returned. -/
def dynamicMonitorData (self : Mm R) (data : List Byte) : Option (Int × Mm R) :=
  if self.wm.clientInfo.suppressOutputMask .clientRequest then some (0, self)
  else do
    let (msgType, s) ← (ByteStream.ofBytes data).inUint 4
    let (msgLength, s) ← s.inUint 4
    if signed 4 msgType ≠ displaycontrolPduTypeMonitorLayout ∧ 0 ≤ signed 4 msgLength then
      some (0, self)
    else do
      let (monitorLayoutSize, s) ← s.inUint 4
      if signed 4 monitorLayoutSize ≠ 40 then some (1, self)
      else (libxrdpProcessMonitorStream true s).map (requestLayout self)

inductive ClientResizeMode where
  | none
  | singleScreen
  | multiScreen
  deriving DecidableEq, Repr

/-- The module asks for another layout of the client. -/
def clientMonitorResize (self : Mm R) (mode : ClientResizeMode) (monitors : List FullMonitorInfo) :
    Int × Mm R :=
  if mode = .none then (1, self)
  else if mode = .singleScreen ∧ 1 < monitors.length then (1, self)
  else
    match libxrdpInitDisplaySizeDescription monitors with
    | .error error => (error.code, self)
    | .ok description => (0, addResizeRequestToQueue self .fromServer description.sizes)

/-- The end of `xrdp_mm_drdynvc_up`, where resizes are enabled. -/
def markDrdynvcUp (self : Mm R) : Mm R :=
  addResizeRequestToQueue self .ignoreMarker
    { minfo := [], minfoWm := [], sessionWidth := 0, sessionHeight := 0 }

end XrdpConsole.MonitorLayout
