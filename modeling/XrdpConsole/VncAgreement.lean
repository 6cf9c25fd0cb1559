import XrdpConsole.VncDisplay

/-!
# Agreement of two states of the VNC module

Two states agree when they differ only in their place in the incremental parser,
in how the bytes to come are cut into pieces, and in paints that show the same.
The functions the two FramebufferUpdate parsers share keep agreement.
-/

namespace XrdpConsole.VncAgreement

open XrdpConsole.Library
open XrdpConsole.Library.Program
open XrdpConsole.VncState
open XrdpConsole.VncLayout
open XrdpConsole.VncFramebuffer
open XrdpConsole.VncDisplay

set_option autoImplicit false

/-! ## Reading -/

def withSock (v : Vnc) (sock : List (List Byte)) : Vnc :=
  { v with trans := { v.trans with sock := sock } }

theorem returns_force_read {size : Int} {before after : Vnc} {data : List Byte} :
    Returns (transForceReadS size) before data after ↔
      before.trans.up = true ∧ 0 ≤ size ∧
        ∃ sock, readExact size.toNat before.trans.sock = some (data, sock) ∧
          withSock before sock = after := by
  unfold transForceReadS
  simp only [returns_read, returns_bind]
  constructor
  · rintro ⟨_, _, ⟨rfl, rfl⟩, _, _, ⟨rfl, rfl⟩, ran⟩
    split at ran
    · exact absurd ran (returns_stop _ _ _ _)
    · split at ran
      · exact absurd ran (returns_stop _ _ _ _)
      · rename_i up size
        refine ⟨Bool.eq_true_of_not_eq_false up, not_lt.mp size, ?_⟩
        split at ran
        · rename_i bytes sock complete
          simp only [returns_bind, returns_update, returns_pure] at ran
          obtain ⟨_, _, rfl, rfl, rfl⟩ := ran
          exact ⟨sock, complete, rfl⟩
        · simp only [returns_bind, returns_stop, and_false, exists_false] at ran
  · rintro ⟨up, size, sock, complete, rfl⟩
    refine ⟨_, _, ⟨rfl, rfl⟩, _, _, ⟨rfl, rfl⟩, ?_⟩
    rw [if_neg (by simp [up]), if_neg (not_lt.mpr size), complete]
    rfl

/-! ## Agreement of two states -/

/-- A state without its place in the parser and without the pieces in which the
bytes to come are cut. -/
def settled (v : Vnc) : Vnc :=
  { v with
    framebufferParseState := .waitMessageType
    framebufferRectsRemaining := 0
    framebufferX := 0
    framebufferY := 0
    framebufferCx := 0
    framebufferCy := 0
    framebufferRawRowBytes := 0
    framebufferRawRowsDone := 0
    trans :=
      { v.trans with
        headerSize := 1
        inData := []
        sock := [v.trans.sock.flatten] }
    calls := []
    dataCallbacks := 0 }

structure Agree (bytes : Nat) (left right : Vnc) : Prop where
  state : settled left = settled right
  effect : SameEffect bytes left.calls right.calls
  depth : getBytesPerPixel left.serverBpp = bytes

section Shared

variable {bytes : Nat}

theorem agree_sock {left right : Vnc} (agree : Agree bytes left right) :
    left.trans.sock.flatten = right.trans.sock.flatten := by
  have same := congrArg (·.trans.sock) agree.state
  simpa [settled] using same

/-- Agreeing states have every part that `settled` keeps in common. -/
theorem agree_part {Part : Type} (part : Vnc → Part) (kept : ∀ v, part (settled v) = part v)
    {left right : Vnc} (agree : Agree bytes left right) : part left = part right := by
  rw [← kept left, ← kept right, agree.state]

theorem simulates_read_part {Part : Type} {part : Vnc → Part}
    (kept : ∀ v, part (settled v) = part v) :
    Simulates (Agree bytes) (Program.read part : VncM Part) (Program.read part) :=
  simulates_read fun _ _ => agree_part part kept

theorem simulates_call (made : ServerCall) : Simulates (Agree bytes) (call made) (call made) := by
  refine simulates_update fun left right agree => ⟨agree.state, ?_, agree.depth⟩
  exact same_effect_append agree.effect [made]

theorem simulates_set_down : Simulates (Agree bytes) setTransDown setTransDown := by
  refine simulates_update fun left right agree => ⟨?_, agree.effect, agree.depth⟩
  exact congrArg (fun v : Vnc => { v with trans := { v.trans with up := false } }) agree.state

theorem simulates_set_server (layout : VncScreenLayout) :
    Simulates (Agree bytes) (setServerLayout layout) (setServerLayout layout) := by
  refine simulates_update fun left right agree => ⟨?_, agree.effect, agree.depth⟩
  exact congrArg (fun v : Vnc => { v with serverLayout := layout }) agree.state

theorem simulates_set_client (layout : VncScreenLayout) :
    Simulates (Agree bytes) (setClientLayout layout) (setClientLayout layout) := by
  refine simulates_update fun left right agree => ⟨?_, agree.effect, agree.depth⟩
  exact congrArg (fun v : Vnc => { v with clientLayout := layout }) agree.state

theorem agree_read {left right : Vnc} (agree : Agree bytes left right)
    {leftSock rightSock : List (List Byte)} (same : leftSock.flatten = rightSock.flatten) :
    Agree bytes (withSock left leftSock) (withSock right rightSock) := by
  refine ⟨?_, agree.effect, agree.depth⟩
  have state := congrArg (fun v : Vnc => withSock v [leftSock.flatten]) agree.state
  simpa [settled, withSock, same] using state

theorem simulates_force_read (size : Int) :
    Simulates (Agree bytes) (transForceReadS size) (transForceReadS size) := by
  intro before before' data after agree ran
  obtain ⟨up, fits, sock, complete, rfl⟩ := returns_force_read.mp ran
  obtain ⟨sock', complete', same⟩ := read_exact_same _ _ _ _ _ (agree_sock agree) complete
  refine ⟨withSock before' sock', returns_force_read.mpr ⟨?_, fits, sock', complete', rfl⟩, ?_⟩
  · exact (agree_part (·.trans.up) (fun _ => rfl) agree).symm.trans up
  · exact agree_read agree same.symm

variable (answers : ServerAnswers)

theorem simulates_send (message : List Byte) :
    Simulates (Agree bytes) (libSendCopy answers message) (libSendCopy answers message) := by
  refine simulates_bind (simulates_read_part fun _ => rfl) fun up => ?_
  refine simulates_ite (simulates_stop _ _) (simulates_ite ?_ ?_)
  · exact simulates_bind simulates_set_down fun _ => simulates_stop _ _
  · exact simulates_ite (simulates_stop _ _) (simulates_call _)

theorem simulates_read_extended :
    Simulates (Agree bytes) readExtendedDesktopSizeRect readExtendedDesktopSizeRect := by
  refine simulates_bind (simulates_force_read 4) fun header => ?_
  refine simulates_ite (simulates_stop _ _) ?_
  exact simulates_bind (simulates_force_read _) fun body => simulates_pure _

theorem simulates_resize_client (updateInProgress : Bool) :
    Simulates (Agree bytes) (resizeClientToServer answers updateInProgress)
      (resizeClientToServer answers updateInProgress) := by
  refine simulates_bind (simulates_read_part fun _ => rfl) fun sl => ?_
  refine simulates_ite (simulates_stop _ _) ?_
  refine simulates_bind (simulates_only_if (simulates_call _)) fun _ => ?_
  refine simulates_bind (simulates_call _) fun _ => ?_
  refine simulates_bind (simulates_only_if (simulates_set_client sl)) fun _ => ?_
  refine simulates_bind (simulates_only_if (simulates_call _)) fun _ => ?_
  exact simulates_only_if (simulates_stop _ _)

theorem simulates_cursor (x y cx cy : Nat) :
    Simulates (Agree bytes) (cursorPayload x y cx cy) (cursorPayload x y cx cy) := by
  refine simulates_bind (simulates_read_part fun _ => rfl) ?_
  intro bpp
  refine simulates_bind (simulates_read_part fun _ => rfl) ?_
  exact fun palette => simulates_bind (simulates_force_read _) fun payload => simulates_call _

theorem simulates_copy_rect (x y cx cy : Nat) :
    Simulates (Agree bytes) (copyRect x y cx cy) (copyRect x y cx cy) :=
  simulates_bind (simulates_force_read 4) fun _ => simulates_call _

theorem simulates_desktop_size (cx cy : Nat) :
    Simulates (Agree bytes) (desktopSizeRect answers cx cy) (desktopSizeRect answers cx cy) :=
  simulates_bind (simulates_set_server _) fun _ => simulates_resize_client answers true

theorem simulates_extended_size (x cx cy : Nat) :
    Simulates (Agree bytes) (extendedDesktopSizeRect answers x cx cy)
      (extendedDesktopSizeRect answers x cx cy) := by
  refine simulates_bind simulates_read_extended fun screens => ?_
  refine simulates_bind (simulates_read_part fun _ => rfl) fun current => simulates_only_if ?_
  exact simulates_bind (simulates_set_server _) fun _ => simulates_resize_client answers true

theorem simulates_request_next :
    Simulates (Agree bytes) (requestNextUpdate answers) (requestNextUpdate answers) := by
  refine simulates_bind (simulates_read_part fun _ => rfl) ?_
  intro suppressOutput
  refine simulates_bind (simulates_read_part fun _ => rfl) fun layout => ?_
  exact simulates_only_if (simulates_send answers _)

end Shared

end XrdpConsole.VncAgreement
