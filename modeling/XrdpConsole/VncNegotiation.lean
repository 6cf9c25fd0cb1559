import XrdpConsole.VncPolling
import XrdpConsole.VncSession

/-!
# The negotiation of the desktop size

What one event of a session does to the layouts, to the resize status and to the messages
sent. The desktop rectangles of an update are those its bytes hold, whichever of the
parsers of `vnc/vnc.c` reads them; `PollStep` and `HostStep` say what becomes of them.
-/

namespace XrdpConsole.VncNegotiation

open XrdpConsole.Library
open XrdpConsole.Library.Program
open XrdpConsole.VncState
open XrdpConsole.VncLayout
open XrdpConsole.VncFramebuffer
open XrdpConsole.VncIncremental
open XrdpConsole.VncModule
open XrdpConsole.VncSession
open XrdpConsole.VncAgreement
open XrdpConsole.VncPolling

set_option autoImplicit false

/-! ## The rectangles of an update -/

/-- A DesktopSize or, where `extended`, an ExtendedDesktopSize rectangle. -/
structure DesktopRect where
  extended : Bool
  x : Nat
  y : Nat
  layout : VncScreenLayout
  deriving DecidableEq, Repr

def extendedSize (bytes : List Byte) : Nat := 4 + 16 * inUint8 (bytes.take 4) 0

def extendedScreens (bytes : List Byte) : List VncScreen :=
  let count := inUint8 (bytes.take 4) 0
  let body := (bytes.drop 4).take (16 * count)
  ((List.range count).map fun i => screenAt body (16 * i)).insertionSort
    fun a b => cmpVncScreen a b ≤ 0

def extendedLayout (cx cy : Nat) (bytes : List Byte) : VncScreenLayout :=
  { totalWidth := cx, totalHeight := cy, s := extendedScreens bytes }

/-- The bytes that follow the header of a rectangle of this encoding. -/
def payloadSize (bpp cx cy encoding : Nat) (payload : List Byte) : Nat :=
  if encoding = rfbEncRaw then
    cx * cy * getBytesPerPixel bpp
  else if encoding = rfbEncCopyRect then
    4
  else if encoding = rfbEncCursor then
    (cx * cy * getBytesPerPixel bpp + (cx + 7) / 8 * cy) % 2 ^ 32
  else if encoding = rfbEncExtendedDesktopSize then
    extendedSize payload
  else
    0

def desktopRect (header payload : List Byte) : Option DesktopRect :=
  let cx := inUint16Be header 4
  let cy := inUint16Be header 6
  let encoding := inUint32Be header 8
  if encoding = rfbEncDesktopSize then
    some { extended := false
           x := inUint16Be header 0
           y := inUint16Be header 2
           layout := initSingleScreenLayout cx cy }
  else if encoding = rfbEncExtendedDesktopSize then
    some { extended := true
           x := inUint16Be header 0
           y := inUint16Be header 2
           layout := extendedLayout cx cy payload }
  else
    none

def afterRect (bpp : Nat) (bytes : List Byte) : List Byte :=
  let header := bytes.take 12
  let payload := bytes.drop 12
  payload.drop
    (payloadSize bpp (inUint16Be header 4) (inUint16Be header 6) (inUint32Be header 8) payload)

/-- The desktop rectangles among the next rectangles of an update. -/
def desktopRects (bpp : Nat) : Nat → List Byte → List DesktopRect
  | 0, _ => []
  | remaining + 1, bytes =>
      (desktopRect (bytes.take 12) (bytes.drop 12)).toList ++
        desktopRects bpp remaining (afterRect bpp bytes)

/-- The desktop rectangles of an update after its message type. -/
def updateRects (bpp : Nat) (bytes : List Byte) : List DesktopRect :=
  desktopRects bpp (inUint16Be (bytes.take 3) 1) (bytes.drop 3)

/-! ## What is negotiated -/

structure Negotiation where
  serverBpp : Nat
  incrementalFramebuffer : Bool
  parseState : VncFramebufferParseState
  suppressOutput : Int
  clientLayout : VncScreenLayout
  serverLayout : VncScreenLayout
  resizeSupported : VncResizeSupportStatus
  resizeStatus : VncResizeStatus
  sent : List (List Byte)

def sentMessage : ServerCall → Option (List Byte)
  | .sendCopy message => some message
  | _ => none

def negotiation (v : Vnc) : Negotiation where
  serverBpp := v.serverBpp
  incrementalFramebuffer := v.incrementalFramebuffer
  parseState := v.framebufferParseState
  suppressOutput := v.suppressOutput
  clientLayout := v.clientLayout
  serverLayout := v.serverLayout
  resizeSupported := v.resizeSupported
  resizeStatus := v.resizeStatus
  sent := v.calls.filterMap sentMessage

namespace Negotiation

def send (p : Negotiation) (message : List Byte) : Negotiation :=
  { p with sent := p.sent ++ [message] }

def updateRequest (p : Negotiation) (incremental : Int) : List Byte :=
  framebufferUpdateRequest incremental 0 0 p.serverLayout.totalWidth p.serverLayout.totalHeight

/-- The request after an update. -/
def requestNext (p : Negotiation) : Negotiation :=
  if p.suppressOutput = 0 then p.send (p.updateRequest 1) else p

def requestForStatus (p : Negotiation) : Negotiation :=
  if p.resizeStatus ≠ .done then
    p.send (framebufferUpdateRequest 0 0 0 1 1)
  else if p.suppressOutput = 0 then
    p.send (p.updateRequest 0)
  else
    p

/-- Both layouts follow what the server has announced. -/
def follow (p : Negotiation) (layout : VncScreenLayout) : Negotiation :=
  { p with
    serverLayout := layout
    clientLayout := layout }

/-- A desktop rectangle in the steady state. -/
def steadyRect (p : Negotiation) (rect : DesktopRect) : Negotiation :=
  if rect.extended = true ∧ (rect.x = 1 ∨ vncScreenLayoutsEqual p.serverLayout rect.layout = true) then
    p
  else
    p.follow rect.layout

def steady (p : Negotiation) (rects : List DesktopRect) : Negotiation := rects.foldl steadyRect p

end Negotiation

/-- The first rectangle that a parser of the negotiation looks for. -/
def firstMatch (isMatch : Nat → Bool) (rects : List DesktopRect) : Option DesktopRect :=
  rects.find? fun rect => rect.extended && isMatch rect.x

def DesktopRect.matching (rect : DesktopRect) : MatchingRect :=
  { x := rect.x, y := rect.y, layout := rect.layout }

/-! ## Reading -/

/-- The negotiation is at `p` and these bytes are still to be read. -/
def Holds (p : Negotiation) (bytes : List Byte) (v : Vnc) : Prop :=
  negotiation v = p ∧ v.trans.sock.flatten = bytes

def AnyError : VncError → Prop := fun _ => True

section Reading

variable {p : Negotiation}

theorem reads_bytes (bytes : List Byte) (size : Int) :
    Ensures (Holds p bytes) (transForceReadS size)
      (fun data v => (0 ≤ size ∧ data = bytes.take size.toNat) ∧
        Holds p (bytes.drop size.toNat) v) AnyError := by
  apply ensures_of_returns
  rintro start data final ⟨here, content⟩ ran
  obtain ⟨-, positive, sock, complete, rfl⟩ := returns_force_read.mp ran
  obtain ⟨split, size⟩ := read_exact_flatten _ _ _ _ complete
  rw [content] at split
  subst split
  rw [← size]
  exact ⟨⟨positive, by simp⟩, here, by simp [withSock]⟩

theorem reads_extended (bytes : List Byte) :
    Ensures (Holds p bytes) readExtendedDesktopSizeRect
      (fun screens v => screens = extendedScreens bytes ∧
        Holds p (bytes.drop (extendedSize bytes)) v) AnyError := by
  apply ensures_bind (reads_bytes bytes 4)
  intro header
  apply ensures_given
  rintro ⟨-, rfl⟩
  apply ensures_ite
  · exact fun _ => ensures_stop trivial
  intro _
  apply ensures_bind (reads_bytes _ _)
  intro body
  apply ensures_given
  rintro ⟨-, rfl⟩
  have size : (16 * (inUint8 (bytes.take 4) 0 : Int)).toNat = 16 * inUint8 (bytes.take 4) 0 := by
    omega
  apply ensures_pure
  intro v holds
  simp only [size, Int.reduceToNat] at holds ⊢
  constructor
  · rfl
  · simpa only [List.drop_drop, extendedSize] using holds

theorem reads_pieces (pieces : Nat) (bytes : List Byte) {size : Nat} (enough : size ≤ 32768 * pieces) :
    Ensures (Holds p bytes) (skipTransPieces pieces size) (fun _ => Holds p (bytes.drop size))
      AnyError := by
  induction pieces generalizing bytes size with
  | zero =>
      obtain rfl : size = 0 := by omega
      exact ensures_pure fun _ holds => holds
  | succ pieces ih =>
      apply ensures_only_if
      · intro some
        apply ensures_bind (reads_bytes bytes _)
        intro piece
        apply ensures_given
        intro _
        have piece : ((min 32768 size : Nat) : Int).toNat = min 32768 size := by omega
        rw [piece]
        apply ensures_conclude (ih _ (by omega))
        intro _ v holds
        rwa [List.drop_drop, Nat.add_sub_cancel' (Nat.min_le_right ..)] at holds
      · intro none v holds
        obtain rfl : size = 0 := by omega
        exact holds

theorem reads_skip (bytes : List Byte) (size : Nat) :
    Ensures (Holds p bytes) (skipTransBytes size) (fun _ => Holds p (bytes.drop size)) AnyError :=
  reads_pieces _ bytes (by omega)

theorem holds_call (bytes : List Byte) {made : ServerCall} (silent : sentMessage made = none) :
    Ensures (Holds p bytes) (call made) (fun _ => Holds p bytes) AnyError := by
  apply ensures_update
  rintro v ⟨here, content⟩
  subst here
  exact ⟨by simp [negotiation, silent], content⟩

/-- A rectangle that is skipped takes its payload with it. -/
theorem reads_skip_encoding (cx cy encoding : Nat) (bytes : List Byte) :
    Ensures (Holds p bytes) (skipEncoding cx cy encoding)
      (fun _ => Holds p (bytes.drop (payloadSize p.serverBpp cx cy encoding bytes))) AnyError := by
  apply ensures_read_bind
  intro v holds
  have bpp : v.serverBpp = p.serverBpp := by rw [← holds.1]; rfl
  rw [bpp]
  have start : ∀ state, state = v → Holds p bytes state := fun _ same => same ▸ holds
  apply ensures_begin start
  unfold payloadSize
  split
  · exact reads_skip bytes _
  split
  · exact reads_skip bytes 4
  split
  · exact reads_skip bytes _
  split
  · rename_i desktop
    rw [desktop, if_neg (by decide)]
    exact ensures_pure fun _ holds => holds
  split
  · apply ensures_bind (reads_extended bytes)
    exact fun screens => ensures_given fun _ => ensures_pure fun _ holds => holds
  · exact holds_call bytes rfl

theorem extended_not_desktop : rfbEncExtendedDesktopSize ≠ rfbEncDesktopSize := by decide

theorem reads_matching (isMatch : Nat → Bool) (remaining : Nat) (found : Option MatchingRect)
    (bytes : List Byte) :
    Ensures (Holds p bytes) (findMatchingRects isMatch remaining found)
      (fun result v =>
        result = found.or ((firstMatch isMatch (desktopRects p.serverBpp remaining bytes)).map
          DesktopRect.matching) ∧ negotiation v = p) AnyError := by
  induction remaining generalizing found bytes with
  | zero => exact ensures_pure fun _ holds => ⟨by simp [firstMatch, desktopRects], holds.1⟩
  | succ remaining ih =>
      apply ensures_bind (reads_bytes bytes 12)
      intro header
      apply ensures_given
      rintro ⟨-, rfl⟩
      apply ensures_ite
      · exact fun _ => ensures_stop trivial
      intro _
      apply ensures_ite
      · rintro ⟨extended, none_found, matches_x⟩
        obtain rfl : found = none := by simpa using none_found
        apply ensures_bind (reads_extended _)
        intro screens
        apply ensures_given
        rintro rfl
        apply ensures_conclude (ih _ _)
        rintro result v ⟨rfl, here⟩
        have taken : desktopRect (bytes.take 12) (bytes.drop 12) = some
            { extended := true
              x := inUint16Be (bytes.take 12) 0
              y := inUint16Be (bytes.take 12) 2
              layout := extendedLayout (inUint16Be (bytes.take 12) 4) (inUint16Be (bytes.take 12) 6)
                (bytes.drop 12) } := by
          simp only [Int.reduceToNat] at extended
          simp [desktopRect, extended, extended_not_desktop]
        refine ⟨?_, here⟩
        simp only [Int.reduceToNat] at matches_x ⊢
        simp [desktopRects, taken, firstMatch, matches_x, DesktopRect.matching, extendedLayout]
      · intro other
        apply ensures_bind (reads_skip_encoding _ _ _ _)
        intro _
        apply ensures_conclude (ih _ _)
        rintro result v ⟨rfl, here⟩
        refine ⟨?_, here⟩
        cases found with
        | some found => simp
        | none =>
            simp only [Int.reduceToNat, Option.isNone_none, true_and] at other ⊢
            have passed : firstMatch isMatch
                (desktopRect (bytes.take 12) (bytes.drop 12)).toList = none := by
              simp only [desktopRect]
              split
              · simp [firstMatch]
              split
              · rename_i extended
                have different : isMatch (inUint16Be (bytes.take 12) 0) = false := by
                  simpa [extended] using other
                simp [firstMatch, different]
              · simp [firstMatch]
            simp only [desktopRects, firstMatch, List.find?_append] at passed ⊢
            rw [passed]
            rfl

end Reading

end XrdpConsole.VncNegotiation
