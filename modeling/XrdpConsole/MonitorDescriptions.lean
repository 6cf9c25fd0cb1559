import XrdpConsole.EgfxRoundTrip
import XrdpConsole.MonitorLayout

/-!
# What a size description says

Which monitors make a description, and where they are in its session. The edges of a monitor are
computed in 32 bits; one that is beyond them leaves a monitor outside of the session.
-/

namespace XrdpConsole.MonitorDescriptions

open XrdpConsole.Library
open XrdpConsole.Region
open XrdpConsole.VncState
open XrdpConsole.MmState
open XrdpConsole.EgfxRoundTrip (SignedFits)
open XrdpConsole.MonitorLayout

set_option autoImplicit false

/-! ## Attributes -/

def PhysicalSize (mi : FullMonitorInfo) : Prop :=
  mi.physicalWidth = 0 ∧ mi.physicalHeight = 0 ∨
    (10 ≤ mi.physicalWidth ∧ mi.physicalWidth ≤ 10000) ∧
      10 ≤ mi.physicalHeight ∧ mi.physicalHeight ≤ 10000

/-- Nothing is given for the monitor, apart from its physical height. -/
def Unset (mi : FullMonitorInfo) : Prop :=
  mi.physicalWidth = 0 ∧ mi.orientation = 0 ∧ mi.desktopScaleFactor = 0 ∧ mi.deviceScaleFactor = 0

structure Sanitised (mi : FullMonitorInfo) : Prop where
  orientation : mi.orientation ∈ orientations
  desktopScale : 100 ≤ mi.desktopScaleFactor ∧ mi.desktopScaleFactor ≤ 500
  deviceScale : mi.deviceScaleFactor ∈ deviceScaleFactors

theorem sanitise_unset {mi : FullMonitorInfo} (unset : Unset mi) :
    sanitiseExtendedMonitorAttributes mi =
      { mi with orientation := 0, desktopScaleFactor := 100, deviceScaleFactor := 100 } := by
  obtain ⟨width, orientation, desktop, device⟩ := unset
  rw [sanitiseExtendedMonitorAttributes, if_pos ⟨width, width, orientation, desktop, device⟩]

theorem sanitise_set {mi : FullMonitorInfo} (set : ¬Unset mi) :
    ∃ sized, sanitisePhysicalSize mi.physicalWidth mi = sized ∧
      sanitiseExtendedMonitorAttributes mi = sanitiseScaleFactors
        (sanitiseOrientation (sanitisePhysicalSize sized.physicalHeight sized)) := by
  refine ⟨_, rfl, ?_⟩
  rw [sanitiseExtendedMonitorAttributes, if_neg]
  rintro ⟨width, -, orientation, desktop, device⟩
  exact set ⟨width, orientation, desktop, device⟩

theorem sanitise_physical {mi sized : FullMonitorInfo}
    (width : sanitisePhysicalSize mi.physicalWidth mi = sized) :
    PhysicalSize (sanitisePhysicalSize sized.physicalHeight sized) := by
  simp only [sanitisePhysicalSize, PhysicalSize] at *
  grind

/-- The physical size of a monitor for which nothing else is given is not looked at. -/
theorem sanitise_physical_iff (mi : FullMonitorInfo) :
    PhysicalSize (sanitiseExtendedMonitorAttributes mi) ↔ (Unset mi → mi.physicalHeight = 0) := by
  by_cases unset : Unset mi
  · have width := unset.1
    rw [sanitise_unset unset]
    constructor
    · intro physical _
      simp only [PhysicalSize] at physical
      omega
    · intro zero
      exact .inl ⟨width, zero unset⟩
  · obtain ⟨sized, width, same⟩ := sanitise_set unset
    have physical := sanitise_physical width
    rw [same]
    generalize sanitisePhysicalSize sized.physicalHeight sized = final at physical
    refine ⟨fun _ set => absurd set unset, fun _ => ?_⟩
    simp only [sanitiseScaleFactors, sanitiseOrientation, PhysicalSize] at physical ⊢
    grind

theorem sanitise_sanitised (mi : FullMonitorInfo) :
    Sanitised (sanitiseExtendedMonitorAttributes mi) := by
  by_cases unset : Unset mi
  · rw [sanitise_unset unset]
    exact ⟨by simp [orientations], by simp, by simp [deviceScaleFactors]⟩
  · obtain ⟨sized, -, same⟩ := sanitise_set unset
    rw [same]
    generalize sanitisePhysicalSize sized.physicalHeight sized = final
    constructor
    · simp only [sanitiseScaleFactors, sanitiseOrientation]
      grind [orientations]
    · simp only [sanitiseScaleFactors]
      grind
    · simp only [sanitiseScaleFactors]
      grind [deviceScaleFactors]

theorem sanitise_placed (mi : FullMonitorInfo) :
    (sanitiseExtendedMonitorAttributes mi).toMonitorInfo = mi.toMonitorInfo ∧
      (sanitiseExtendedMonitorAttributes mi).isPrimary = mi.isPrimary := by
  simp only [sanitiseExtendedMonitorAttributes, sanitisePhysicalSize, sanitiseOrientation,
    sanitiseScaleFactors]
  grind

/-! ## Primary monitors -/

def unmarked (mi : FullMonitorInfo) : FullMonitorInfo := { mi with isPrimary := 0 }

def primaryCount (monitors : List FullMonitorInfo) : Nat :=
  monitors.countP (·.isPrimary = tsMonitorPrimary)

theorem keep_one_unmarked (gotPrimary : Bool) (monitors : List FullMonitorInfo) :
    (keepOnePrimary gotPrimary monitors).2.map unmarked = monitors.map unmarked := by
  induction monitors generalizing gotPrimary with
  | nil => rfl
  | cons mi rest ih =>
      simp only [keepOnePrimary]
      split
      · simp only [List.map_cons, ih]
        split
        · rfl
        · rfl
      · simp only [List.map_cons, ih]

theorem choose_primary_unmarked (bounds : Rect) (monitors : List FullMonitorInfo) :
    (choosePrimary bounds monitors).map unmarked = monitors.map unmarked := by
  induction monitors with
  | nil => rfl
  | cons mi rest ih =>
      simp only [choosePrimary]
      split
      · rfl
      · simp only [List.map_cons, ih]

theorem primary_monitors_unmarked (bounds : Rect) (monitors : List FullMonitorInfo) :
    (primaryMonitors bounds monitors).map unmarked = monitors.map unmarked := by
  simp only [primaryMonitors]
  split
  · exact keep_one_unmarked false monitors
  · rw [choose_primary_unmarked, keep_one_unmarked]

/-- The one that is kept, beside one that has been found before. -/
theorem keep_one_count (gotPrimary : Bool) (monitors : List FullMonitorInfo) :
    primaryCount (keepOnePrimary gotPrimary monitors).2 + (if gotPrimary then 1 else 0) =
        (if (keepOnePrimary gotPrimary monitors).1 then 1 else 0) ∧
      ((keepOnePrimary gotPrimary monitors).1 = true ↔
        gotPrimary = true ∨ ∃ mi ∈ monitors, mi.isPrimary = tsMonitorPrimary) := by
  induction monitors generalizing gotPrimary with
  | nil => cases gotPrimary <;> simp [keepOnePrimary, primaryCount]
  | cons mi rest ih =>
      simp only [keepOnePrimary]
      by_cases primary : mi.isPrimary = tsMonitorPrimary
      · obtain ⟨count, found⟩ := ih true
        simp only [if_pos primary, primaryCount, List.countP_cons] at count ⊢
        constructor
        · cases gotPrimary <;> simp_all [tsMonitorPrimary]
        · simp_all
      · obtain ⟨count, found⟩ := ih gotPrimary
        simp only [if_neg primary, primaryCount, List.countP_cons] at count ⊢
        constructor
        · simp_all
        · simp_all

theorem choose_primary_count {bounds : Rect} {monitors : List FullMonitorInfo}
    (none_marked : ∀ mi ∈ monitors, mi.isPrimary ≠ tsMonitorPrimary) :
    primaryCount (choosePrimary bounds monitors) ≤ 1 ∧
      (primaryCount (choosePrimary bounds monitors) = 1 ↔ ∃ mi ∈ monitors, AtCorner bounds mi) := by
  induction monitors with
  | nil => simp [choosePrimary, primaryCount]
  | cons mi rest ih =>
      obtain ⟨here, later⟩ := List.forall_mem_cons.mp none_marked
      simp only [List.mem_cons, exists_eq_or_imp]
      by_cases corner : AtCorner bounds mi
      · have others : primaryCount rest = 0 := by
          rw [primaryCount, List.countP_eq_zero]
          simpa using later
        rw [choosePrimary, if_pos corner, primaryCount, List.countP_cons, ← primaryCount, others]
        simp [corner]
      · rw [choosePrimary, if_neg corner, primaryCount, List.countP_cons, ← primaryCount]
        simpa [here, corner] using ih later

theorem keep_one_none {gotPrimary : Bool} {monitors : List FullMonitorInfo}
    (none_marked : ∀ mi ∈ monitors, mi.isPrimary ≠ tsMonitorPrimary) :
    keepOnePrimary gotPrimary monitors = (gotPrimary, monitors) := by
  induction monitors with
  | nil => rfl
  | cons mi rest ih =>
      obtain ⟨here, later⟩ := List.forall_mem_cons.mp none_marked
      rw [keepOnePrimary, if_neg here, ih later]

/-- Without one at the top left corner there may be no primary monitor at all. -/
theorem primary_monitors_count (bounds : Rect) (monitors : List FullMonitorInfo) :
    primaryCount (primaryMonitors bounds monitors) ≤ 1 ∧
      (primaryCount (primaryMonitors bounds monitors) = 1 ↔
        (∃ mi ∈ monitors, mi.isPrimary = tsMonitorPrimary) ∨ ∃ mi ∈ monitors, AtCorner bounds mi) := by
  by_cases marked : ∃ mi ∈ monitors, mi.isPrimary = tsMonitorPrimary
  · obtain ⟨count, found⟩ := keep_one_count false monitors
    have kept : (keepOnePrimary false monitors).1 = true := found.mpr (.inr marked)
    simp only [kept, Bool.false_eq_true, if_false, if_true, Nat.add_zero] at count
    rw [primaryMonitors, if_pos kept, count]
    exact ⟨le_refl 1, fun _ => .inl marked, fun _ => rfl⟩
  · have none_marked : ∀ mi ∈ monitors, mi.isPrimary ≠ tsMonitorPrimary :=
      fun mi member primary => marked ⟨mi, member, primary⟩
    have chosen := @choose_primary_count bounds monitors none_marked
    rw [primaryMonitors, keep_one_none none_marked, if_neg (by simp)]
    exact ⟨chosen.1, chosen.2.trans (by simp [marked])⟩

/-! ## Places -/

/-- The four edges are numbers that an `int` holds. -/
def Words (mi : MonitorInfo) : Prop :=
  SignedFits mi.left ∧ SignedFits mi.top ∧ SignedFits mi.right ∧ SignedFits mi.bottom

def Ordered (mi : MonitorInfo) : Prop := mi.left ≤ mi.right ∧ mi.top ≤ mi.bottom

instance (mi : MonitorInfo) : Decidable (Ordered mi) := inferInstanceAs (Decidable (_ ∧ _))

def InSession (width height : Int) (mi : MonitorInfo) : Prop :=
  (0 ≤ mi.left ∧ mi.left ≤ mi.right ∧ mi.right < width) ∧
    0 ≤ mi.top ∧ mi.top ≤ mi.bottom ∧ mi.bottom < height

theorem bounds_contain {monitors : List MonitorInfo} {mi : MonitorInfo} (member : mi ∈ monitors) :
    (boundsOf mi).Inside (encompassingBounds monitors) := by
  cases monitors with
  | nil => cases member
  | cons first rest =>
      have listed : boundsOf mi ∈ boundsOf first :: rest.map boundsOf := by
        rw [← List.map_cons]
        exact List.mem_map_of_mem member
      exact Rect.enclosing_contains _ _ _ listed

/-- No other rectangle around the monitors is smaller. -/
theorem bounds_least {monitors : List MonitorInfo} {outer : Rect} (some_listed : monitors ≠ [])
    (inside : ∀ mi ∈ monitors, (boundsOf mi).Inside outer) :
    (encompassingBounds monitors).Inside outer := by
  cases monitors with
  | nil => exact absurd rfl some_listed
  | cons first rest =>
      apply Rect.enclosing_least
      intro rect member
      rw [← List.map_cons] at member
      obtain ⟨mi, listed, rfl⟩ := List.mem_map.mp member
      exact inside mi listed

/-- An interval moved back by the low end of another, both in 32 bits. -/
theorem moved_edges {low high left right : Int} (small : -2 ^ 31 ≤ low ∧ high < 2 ^ 31)
    (inside : low ≤ left ∧ right ≤ high) (words : left < 2 ^ 31 ∧ -2 ^ 31 ≤ right)
    (narrow : high - low < 2 ^ 31) :
    (0 ≤ toInt32 (left - low) ∧ toInt32 (left - low) ≤ toInt32 (right - low) ∧
        toInt32 (right - low) < high - low + 1) ↔ left ≤ right := by
  unfold toInt32
  omega

theorem session_extent_ok {low high : Int} (words : -2 ^ 31 ≤ low ∧ high < 2 ^ 31) :
    (low < high ∧ 200 ≤ sessionExtent low high ∧ sessionExtent low high ≤ 32766) ↔
      200 ≤ high - low + 1 ∧ high - low + 1 ≤ 32766 := by
  unfold sessionExtent
  omega

theorem session_extent {low high : Int} (small : 200 ≤ high - low + 1 ∧ high - low + 1 ≤ 32766) :
    sessionExtent low high = high - low + 1 := by
  unfold sessionExtent
  omega

/-- The rectangle around all numbers that an `int` holds. -/
def intRect : Rect where
  left := -2 ^ 31
  top := -2 ^ 31
  right := 2 ^ 31 - 1
  bottom := 2 ^ 31 - 1

theorem bounds_words {monitors : List MonitorInfo} (some_listed : monitors ≠ [])
    (words : ∀ mi ∈ monitors, Words mi) : (encompassingBounds monitors).Inside intRect := by
  apply bounds_least some_listed
  intro mi member
  have word := words mi member
  simp only [Words, SignedFits] at word
  simp only [Rect.Inside, boundsOf, intRect]
  omega

/-- The rectangle around the monitors. -/
def desktop (monitors : List FullMonitorInfo) : Rect :=
  encompassingBounds (monitors.map (·.toMonitorInfo))

/-- Layouts that make a description. -/
structure Acceptable (monitors : List FullMonitorInfo) : Prop where
  count : 1 ≤ monitors.length ∧ monitors.length ≤ 16
  width : 200 ≤ (desktop monitors).right - (desktop monitors).left + 1 ∧
    (desktop monitors).right - (desktop monitors).left + 1 ≤ 32766
  height : 200 ≤ (desktop monitors).bottom - (desktop monitors).top + 1 ∧
    (desktop monitors).bottom - (desktop monitors).top + 1 ≤ 32766

theorem init_ok {monitors : List FullMonitorInfo} {description : FullDescription} :
    libxrdpInitDisplaySizeDescription monitors = .ok description ↔
      (monitors.length ≤ clientMonitorDataMaximumMonitors ∧ (desktop monitors).Solid ∧
        DesktopSizeOk (describeMonitors monitors).sessionWidth
          (describeMonitors monitors).sessionHeight) ∧
      describeMonitors monitors = description := by
  simp only [libxrdpInitDisplaySizeDescription, desktop]
  split
  · rename_i many
    simp [Nat.not_le.mpr many]
  · rename_i few
    split
    · rename_i flat
      simp [flat]
    · rename_i solid
      split
      · rename_i unsized
        simp [unsized]
      · rename_i sized
        simp [Nat.not_lt.mp few, not_not.mp solid, not_not.mp sized]

theorem desktop_words {monitors : List FullMonitorInfo} (some_listed : monitors ≠ [])
    (words : ∀ mi ∈ monitors, Words mi.toMonitorInfo) : (desktop monitors).Inside intRect := by
  apply bounds_words
  · simpa using some_listed
  · intro place member
    obtain ⟨mi, listed, rfl⟩ := List.mem_map.mp member
    exact words mi listed

theorem init_acceptable {monitors : List FullMonitorInfo} {description : FullDescription}
    (words : ∀ mi ∈ monitors, Words mi.toMonitorInfo) :
    libxrdpInitDisplaySizeDescription monitors = .ok description ↔
      Acceptable monitors ∧ describeMonitors monitors = description := by
  rw [init_ok]
  apply and_congr_left
  rintro rfl
  by_cases some_listed : monitors = []
  · subst some_listed
    constructor
    · rintro ⟨-, solid, -⟩
      exact absurd solid (by decide)
    · intro acceptable
      exact absurd acceptable.count.1 (by decide)
  · have inside := desktop_words some_listed words
    have listed : 1 ≤ monitors.length := List.length_pos_iff.mpr some_listed
    have width : (describeMonitors monitors).sessionWidth =
      sessionExtent (desktop monitors).left (desktop monitors).right := rfl
    have height : (describeMonitors monitors).sessionHeight =
      sessionExtent (desktop monitors).top (desktop monitors).bottom := rfl
    simp only [Rect.Inside, intRect] at inside
    have across := @session_extent_ok (desktop monitors).left (desktop monitors).right (by omega)
    have down := @session_extent_ok (desktop monitors).top (desktop monitors).bottom (by omega)
    rw [width, height]
    simp only [Rect.Solid, DesktopSizeOk, clientMonitorDataMaximumMonitors,
      clientMonitorDataMinimumVirtualDesktopWidth, clientMonitorDataMaximumVirtualDesktopWidth,
      clientMonitorDataMinimumVirtualDesktopHeight, clientMonitorDataMaximumVirtualDesktopHeight]
    constructor
    · rintro ⟨few, solid, sized⟩
      exact ⟨⟨listed, few⟩, across.mp ⟨solid.1, sized.1⟩, down.mp ⟨solid.2, sized.2⟩⟩
    · intro acceptable
      obtain ⟨wide, width_ok⟩ := across.mpr acceptable.width
      obtain ⟨high, height_ok⟩ := down.mpr acceptable.height
      exact ⟨acceptable.count.2, ⟨wide, high⟩, width_ok, height_ok⟩

/-! ## What the description says -/

theorem minfo_unmarked (monitors : List FullMonitorInfo) :
    (describeMonitors monitors).minfo.map unmarked =
      monitors.map fun mi => unmarked (sanitiseExtendedMonitorAttributes mi) := by
  simp only [describeMonitors, primary_monitors_unmarked, List.map_map, Function.comp_def]

theorem minfo_places (monitors : List FullMonitorInfo) :
    (describeMonitors monitors).minfo.map (·.toMonitorInfo) = monitors.map (·.toMonitorInfo) := by
  have unmarked_places := congrArg (List.map (·.toMonitorInfo)) (minfo_unmarked monitors)
  simp only [List.map_map, Function.comp_def, unmarked, sanitise_placed] at unmarked_places
  exact unmarked_places

theorem sanitised_unmarked (mi : FullMonitorInfo) : Sanitised (unmarked mi) ↔ Sanitised mi :=
  ⟨fun ⟨orientation, desktop, device⟩ => ⟨orientation, desktop, device⟩,
    fun ⟨orientation, desktop, device⟩ => ⟨orientation, desktop, device⟩⟩

theorem minfo_sanitised {monitors : List FullMonitorInfo} {mi : FullMonitorInfo}
    (member : mi ∈ (describeMonitors monitors).minfo) : Sanitised mi := by
  have listed : unmarked mi ∈ (describeMonitors monitors).minfo.map unmarked :=
    List.mem_map_of_mem member
  rw [minfo_unmarked] at listed
  obtain ⟨source, -, same⟩ := List.mem_map.mp listed
  rw [← sanitised_unmarked, ← same, sanitised_unmarked]
  exact sanitise_sanitised source

theorem minfo_physical (monitors : List FullMonitorInfo) :
    (∀ mi ∈ (describeMonitors monitors).minfo, PhysicalSize mi) ↔
      ∀ mi ∈ monitors, Unset mi → mi.physicalHeight = 0 := by
  have in_list : (∀ mi ∈ (describeMonitors monitors).minfo.map unmarked, PhysicalSize mi) ↔
      ∀ mi ∈ (describeMonitors monitors).minfo, PhysicalSize mi := List.forall_mem_map
  rw [← in_list, minfo_unmarked, List.forall_mem_map]
  exact forall₂_congr fun mi _ => sanitise_physical_iff mi

theorem minfo_primary (monitors : List FullMonitorInfo) :
    primaryCount (describeMonitors monitors).minfo ≤ 1 ∧
      (primaryCount (describeMonitors monitors).minfo = 1 ↔
        (∃ mi ∈ monitors, mi.isPrimary = tsMonitorPrimary) ∨
          ∃ mi ∈ monitors, AtCorner (desktop monitors) mi) := by
  have counted := primary_monitors_count (desktop monitors)
    (monitors.map sanitiseExtendedMonitorAttributes)
  simp only [List.mem_map, exists_exists_and_eq_and, AtCorner, sanitise_placed] at counted
  exact counted

theorem wm_places (monitors : List FullMonitorInfo) :
    (describeMonitors monitors).minfoWm.map (·.toMonitorInfo) =
      monitors.map fun mi => movePlace (desktop monitors) mi.toMonitorInfo := by
  have moved : (describeMonitors monitors).minfoWm.map (·.toMonitorInfo) =
      ((describeMonitors monitors).minfo.map (·.toMonitorInfo)).map
        (movePlace (desktop monitors)) := by
    simp only [describeMonitors, List.map_map, Function.comp_def, moveMonitor, desktop]
  rw [moved, minfo_places, List.map_map]
  rfl

theorem wm_forall {monitors : List FullMonitorInfo} (holds : MonitorInfo → Prop) :
    (∀ mi ∈ (describeMonitors monitors).minfoWm, holds mi.toMonitorInfo) ↔
      ∀ mi ∈ monitors, holds (movePlace (desktop monitors) mi.toMonitorInfo) := by
  have in_list : (∀ mi ∈ (describeMonitors monitors).minfoWm, holds mi.toMonitorInfo) ↔
      ∀ place ∈ (describeMonitors monitors).minfoWm.map (·.toMonitorInfo), holds place :=
    List.forall_mem_map.symm
  rw [in_list, wm_places, List.forall_mem_map]

/-- An edge that 32 bits do not hold puts its monitor outside. -/
theorem wm_in_session {monitors : List FullMonitorInfo}
    (words : ∀ mi ∈ monitors, Words mi.toMonitorInfo) (acceptable : Acceptable monitors) :
    (∀ mi ∈ (describeMonitors monitors).minfoWm, InSession (describeMonitors monitors).sessionWidth
        (describeMonitors monitors).sessionHeight mi.toMonitorInfo) ↔
      ∀ mi ∈ monitors, Ordered mi.toMonitorInfo := by
  have width : (describeMonitors monitors).sessionWidth =
    (desktop monitors).right - (desktop monitors).left + 1 := session_extent acceptable.width
  have height : (describeMonitors monitors).sessionHeight =
    (desktop monitors).bottom - (desktop monitors).top + 1 := session_extent acceptable.height
  have some_listed : monitors ≠ [] := List.length_pos_iff.mp acceptable.count.1
  have around := desktop_words some_listed words
  rw [wm_forall (InSession _ _), width, height]
  apply forall₂_congr
  intro mi member
  have word := words mi member
  have inside : (boundsOf mi.toMonitorInfo).Inside (desktop monitors) :=
    bounds_contain (List.mem_map_of_mem member)
  simp only [Rect.Inside, boundsOf, intRect, Words, SignedFits] at around inside word
  rw [InSession, Ordered]
  apply and_congr
  · exact moved_edges (by omega) (by omega) (by omega) (by have := acceptable.width; omega)
  · exact moved_edges (by omega) (by omega) (by omega) (by have := acceptable.height; omega)

structure Described (monitors : List FullMonitorInfo) (description : FullDescription) : Prop where
  acceptable : Acceptable monitors
  places : description.minfo.map (·.toMonitorInfo) = monitors.map (·.toMonitorInfo)
  attributes : ∀ mi ∈ description.minfo, Sanitised mi
  physical : (∀ mi ∈ description.minfo, PhysicalSize mi) ↔
    ∀ mi ∈ monitors, Unset mi → mi.physicalHeight = 0
  primary : primaryCount description.minfo ≤ 1 ∧
    (primaryCount description.minfo = 1 ↔
      (∃ mi ∈ monitors, mi.isPrimary = tsMonitorPrimary) ∨ ∃ mi ∈ monitors, AtCorner (desktop monitors) mi)
  width : description.sessionWidth = (desktop monitors).right - (desktop monitors).left + 1
  height : description.sessionHeight = (desktop monitors).bottom - (desktop monitors).top + 1
  inside : (∀ mi ∈ description.minfoWm,
      InSession description.sessionWidth description.sessionHeight mi.toMonitorInfo) ↔
    ∀ mi ∈ monitors, Ordered mi.toMonitorInfo

theorem description_exact {monitors : List FullMonitorInfo}
    (words : ∀ mi ∈ monitors, Words mi.toMonitorInfo) :
    (∀ description, libxrdpInitDisplaySizeDescription monitors = .ok description →
        Described monitors description) ∧
      (Acceptable monitors → ∃ description,
        libxrdpInitDisplaySizeDescription monitors = .ok description) := by
  constructor
  · intro description accepted
    obtain ⟨acceptable, rfl⟩ := (init_acceptable words).mp accepted
    exact ⟨acceptable, minfo_places monitors, fun _ => minfo_sanitised, minfo_physical monitors,
      minfo_primary monitors, session_extent acceptable.width, session_extent acceptable.height,
      wm_in_session words acceptable⟩
  · intro acceptable
    exact ⟨_, (init_acceptable words).mpr ⟨acceptable, rfl⟩⟩

/-- Two screens side by side, the primary one on the right. For the other one nothing but a
height is given. -/
def twoScreens : List FullMonitorInfo :=
  [{ left := -640, top := 0, right := -1, bottom := 479, flags := 0, physicalWidth := 0
     physicalHeight := 99999, orientation := 0, desktopScaleFactor := 0, deviceScaleFactor := 0
     isPrimary := 0 },
    { left := 0, top := 0, right := 639, bottom := 479, flags := 1, physicalWidth := 5
      physicalHeight := 300, orientation := 45, desktopScaleFactor := 99, deviceScaleFactor := 140
      isPrimary := 1 }]

theorem two_screens_words : ∀ mi ∈ twoScreens, Words mi.toMonitorInfo := by
  simp only [twoScreens, List.forall_mem_cons, Words, SignedFits]
  exact ⟨by decide, by decide, by simp⟩

theorem description_exact_two : Described twoScreens (describeMonitors twoScreens) ∧
    (describeMonitors twoScreens).sessionWidth = 1280 :=
  ⟨(description_exact two_screens_words).1 _ (by decide), by decide⟩

end XrdpConsole.MonitorDescriptions
