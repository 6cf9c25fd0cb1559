import Mathlib.Data.List.Nodup
import XrdpConsole.MmState

/-!
# The graphics channel as its receiver sees it

Which surfaces exist and which frame is open after a stream of messages, and when
a stream keeps to the rules: frames do not overlap and end with the id they
started with, tiles come inside a frame for a surface that exists, surfaces are
created and deleted in turn. Nothing here is translated from the source.
-/

namespace XrdpConsole.GfxProtocol

open XrdpConsole.MmState

set_option autoImplicit false

variable {R : Type}

structure Receiver where
  openFrame : Option Int
  exists_surface : Int → Bool

def emptyReceiver : Receiver where
  openFrame := none
  exists_surface := fun _ => false

def receive (receiver : Receiver) : GfxPdu → Receiver
  | .startFrame frameId _ => { receiver with openFrame := some frameId }
  | .endFrame _ => { receiver with openFrame := none }
  | .createSurface surfaceId _ _ _ =>
      { receiver with exists_surface := Function.update receiver.exists_surface surfaceId true }
  | .deleteSurface surfaceId =>
      { receiver with exists_surface := Function.update receiver.exists_surface surfaceId false }
  | _ => receiver

/-- What a message needs in the state it arrives in. -/
def Acceptable (receiver : Receiver) : GfxPdu → Prop
  | .startFrame _ _ => receiver.openFrame = none
  | .endFrame frameId => receiver.openFrame = some frameId
  | .wireToSurface1 surfaceId _ _ _ _ =>
      receiver.openFrame.isSome = true ∧ receiver.exists_surface surfaceId = true
  | .createSurface surfaceId _ _ _ => receiver.exists_surface surfaceId = false
  | .deleteSurface surfaceId => receiver.exists_surface surfaceId = true
  | _ => True

def receiveAll (receiver : Receiver) (pdus : List GfxPdu) : Receiver := pdus.foldl receive receiver

def WellFormedFrom : Receiver → List GfxPdu → Prop
  | _, [] => True
  | receiver, pdu :: rest => Acceptable receiver pdu ∧ WellFormedFrom (receive receiver pdu) rest

/-- The stream of a whole session. -/
def WellFormedStream (pdus : List GfxPdu) : Prop := WellFormedFrom emptyReceiver pdus

theorem receive_all_append (receiver : Receiver) (pdus later : List GfxPdu) :
    receiveAll receiver (pdus ++ later) = receiveAll (receiveAll receiver pdus) later :=
  List.foldl_append

theorem well_formed_append {receiver : Receiver} {pdus later : List GfxPdu}
    (first : WellFormedFrom receiver pdus)
    (second : WellFormedFrom (receiveAll receiver pdus) later) :
    WellFormedFrom receiver (pdus ++ later) := by
  induction pdus generalizing receiver with
  | nil => exact second
  | cons pdu rest ih => exact ⟨first.1, ih first.2 second⟩

instance (receiver : Receiver) : (pdu : GfxPdu) → Decidable (Acceptable receiver pdu)
  | .startFrame _ _ => inferInstanceAs (Decidable (_ = _))
  | .endFrame _ => inferInstanceAs (Decidable (_ = _))
  | .wireToSurface1 _ _ _ _ _ => inferInstanceAs (Decidable (_ ∧ _))
  | .createSurface _ _ _ _ => inferInstanceAs (Decidable (_ = _))
  | .deleteSurface _ => inferInstanceAs (Decidable (_ = _))
  | .capsConfirm _ _ => inferInstanceAs (Decidable True)
  | .resetGraphics _ _ _ => inferInstanceAs (Decidable True)
  | .mapSurface _ _ _ => inferInstanceAs (Decidable True)

instance decidableWellFormedFrom :
    (receiver : Receiver) → (pdus : List GfxPdu) → Decidable (WellFormedFrom receiver pdus)
  | _, [] => inferInstanceAs (Decidable True)
  | receiver, pdu :: rest =>
      have := decidableWellFormedFrom (receive receiver pdu) rest
      inferInstanceAs (Decidable (Acceptable receiver pdu ∧ WellFormedFrom (receive receiver pdu) rest))

/-! ## The receiver of a session -/

def receiverOf (self : Mm R) : Receiver := receiveAll emptyReceiver self.egfx.sent

def SurfacesGone (self : Mm R) : Prop :=
  ∀ surfaceId, (receiverOf self).exists_surface surfaceId = false

/-- The surfaces `xrdp_mm_egfx_create_surfaces` makes for the current sizes. -/
def currentSurfaces (self : Mm R) : List Int :=
  if self.wm.clientInfo.displaySizes.monitorCount < 1 then
    [self.egfx.surfaceId]
  else
    (List.range self.wm.clientInfo.displaySizes.monitorCount).map fun index : Nat => (index : Int)

theorem current_surfaces_distinct (self : Mm R) : (currentSurfaces self).Nodup := by
  unfold currentSurfaces
  split
  · simp
  · apply List.Nodup.map _ List.nodup_range
    intro left right same
    exact Int.ofNat_inj.mp same

/-! ## Groups of messages -/

/-- Each message is acceptable where it arrives; the last one leaves this frame open
and these surfaces. -/
structure Changes (receiver : Receiver) (pdus : List GfxPdu) (openFrame : Option Int)
    (existing : Int → Prop) : Prop where
  accepted : WellFormedFrom receiver pdus
  frame : (receiveAll receiver pdus).openFrame = openFrame
  surfaces : ∀ surfaceId, (receiveAll receiver pdus).exists_surface surfaceId = true ↔
    existing surfaceId

theorem changes_nil (receiver : Receiver) :
    Changes receiver [] receiver.openFrame (receiver.exists_surface · = true) :=
  ⟨trivial, rfl, fun _ => Iff.rfl⟩

theorem changes_append {receiver : Receiver} {pdus later : List GfxPdu}
    {openFrame openLater : Option Int} {existing existingLater : Int → Prop}
    (first : Changes receiver pdus openFrame existing)
    (second : Changes (receiveAll receiver pdus) later openLater existingLater) :
    Changes receiver (pdus ++ later) openLater existingLater where
  accepted := well_formed_append first.accepted second.accepted
  frame := by
    rw [receive_all_append]
    exact second.frame
  surfaces surfaceId := by
    rw [receive_all_append]
    exact second.surfaces surfaceId

theorem changes_cons {receiver : Receiver} {pdu : GfxPdu} {rest : List GfxPdu}
    {openFrame : Option Int} {existing : Int → Prop} (acceptable : Acceptable receiver pdu)
    (later : Changes (receive receiver pdu) rest openFrame existing) :
    Changes receiver (pdu :: rest) openFrame existing :=
  ⟨⟨acceptable, later.accepted⟩, later.frame, later.surfaces⟩

theorem changes_same {receiver : Receiver} {pdus : List GfxPdu} {openFrame : Option Int}
    {existing other : Int → Prop} (changes : Changes receiver pdus openFrame existing)
    (same : ∀ surfaceId, existing surfaceId ↔ other surfaceId) :
    Changes receiver pdus openFrame other :=
  ⟨changes.accepted, changes.frame, fun surfaceId => (changes.surfaces surfaceId).trans (same surfaceId)⟩

theorem deletes_changes {surfaceIds : List Int} (distinct : surfaceIds.Nodup) (receiver : Receiver)
    (all : ∀ surfaceId ∈ surfaceIds, receiver.exists_surface surfaceId = true) :
    Changes receiver (surfaceIds.map .deleteSurface) receiver.openFrame
      fun surfaceId => receiver.exists_surface surfaceId = true ∧ surfaceId ∉ surfaceIds := by
  induction surfaceIds generalizing receiver with
  | nil => exact changes_same (changes_nil receiver) (by simp)
  | cons surfaceId rest ih =>
      obtain ⟨fresh, distinctRest⟩ := List.nodup_cons.mp distinct
      have others : ∀ other ∈ rest, other ≠ surfaceId := fun other member same =>
        fresh (same ▸ member)
      rw [List.map_cons]
      apply changes_cons
      · exact all surfaceId (List.mem_cons_self ..)
      apply changes_same (ih distinctRest (receive receiver (.deleteSurface surfaceId)) _)
      · intro other
        simp only [receive, Function.update_apply, List.mem_cons]
        by_cases same : other = surfaceId <;> simp [same]
      · intro other member
        simp only [receive, Function.update_apply, others other member, if_false]
        exact all other (List.mem_cons_of_mem surfaceId member)

theorem creates_changes {Item : Type} {items : List Item} {surface : Item → Int}
    {created : Item → List GfxPdu} (distinct : (items.map surface).Nodup)
    (creates : ∀ item receiver, receiver.exists_surface (surface item) = false →
      Changes receiver (created item) receiver.openFrame
        fun surfaceId => receiver.exists_surface surfaceId = true ∨ surfaceId = surface item)
    (receiver : Receiver)
    (fresh : ∀ item ∈ items, receiver.exists_surface (surface item) = false) :
    Changes receiver (items.flatMap created) receiver.openFrame fun surfaceId =>
      receiver.exists_surface surfaceId = true ∨ surfaceId ∈ items.map surface := by
  induction items generalizing receiver with
  | nil => exact changes_same (changes_nil receiver) (by simp)
  | cons item rest ih =>
      obtain ⟨other, distinctRest⟩ := List.nodup_cons.mp distinct
      have first := creates item receiver (fresh item (List.mem_cons_self ..))
      rw [List.flatMap_cons]
      have later := ih distinctRest (receiveAll receiver (created item)) ?_
      · rw [first.frame] at later
        apply changes_same (changes_append first later)
        intro surfaceId
        rw [first.surfaces, List.map_cons, List.mem_cons, or_assoc]
      · intro next member
        apply Bool.eq_false_iff.mpr
        rw [Ne, first.surfaces, not_or]
        constructor
        · simp [fresh next (List.mem_cons_of_mem item member)]
        · intro same
          exact other (same ▸ List.mem_map_of_mem member)

/-- Tiles for one surface. -/
theorem tiles_changes {receiver : Receiver} {surfaceId : Int} {pdus : List GfxPdu}
    (framed : receiver.openFrame.isSome = true)
    (existing : receiver.exists_surface surfaceId = true)
    (tiles : ∀ pdu ∈ pdus, ∃ codecId pixelFormat rect data,
      pdu = .wireToSurface1 surfaceId codecId pixelFormat rect data) :
    Changes receiver pdus receiver.openFrame (receiver.exists_surface · = true) := by
  induction pdus with
  | nil => exact changes_nil receiver
  | cons pdu rest ih =>
      obtain ⟨codecId, pixelFormat, rect, data, rfl⟩ := tiles pdu (List.mem_cons_self ..)
      apply changes_cons
      · exact ⟨framed, existing⟩
      · exact ih fun other member => tiles other (List.mem_cons_of_mem _ member)

/-- A whole frame on one surface. -/
theorem frame_changes {receiver : Receiver} {surfaceId : Int} {pdus : List GfxPdu} (frameId : Int)
    (free : receiver.openFrame = none) (existing : receiver.exists_surface surfaceId = true)
    (tiles : ∀ pdu ∈ pdus, ∃ codecId pixelFormat rect data,
      pdu = .wireToSurface1 surfaceId codecId pixelFormat rect data) :
    Changes receiver (.startFrame frameId 0 :: pdus ++ [.endFrame frameId]) none
      (receiver.exists_surface · = true) := by
  have inside := @tiles_changes (receive receiver (.startFrame frameId 0)) surfaceId pdus rfl
    existing tiles
  rw [List.cons_append]
  apply changes_cons
  · exact free
  apply changes_append inside
  apply changes_cons
  · exact inside.frame
  · exact ⟨trivial, rfl, inside.surfaces⟩

end XrdpConsole.GfxProtocol
