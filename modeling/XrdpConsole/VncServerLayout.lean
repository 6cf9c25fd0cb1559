import XrdpConsole.VncRequests

/-!
# The module's picture of the server layout

Which parser handles an update decides which of its desktop rectangles count. The picture
stays true as long as every rectangle that announces a layout is one that the parser in
charge looks at, and no resize is asked for while the server owes a reply.
-/

namespace XrdpConsole.VncServerLayout

open XrdpConsole.Library
open XrdpConsole.Library.Program
open XrdpConsole.VncState
open XrdpConsole.VncLayout
open XrdpConsole.VncFramebuffer
open XrdpConsole.VncModule
open XrdpConsole.VncSession
open XrdpConsole.VncNegotiation
open XrdpConsole.VncExchange
open XrdpConsole.VncEvents
open XrdpConsole.VncParserInvariant
open XrdpConsole.VncRequests

set_option autoImplicit false

/-- A server that answers every SetDesktopSize with one reply. -/
def RepliesOwed (c : Conversation) : Move → Prop
  | .event event _ => (announcedAt c.v event).countP isReply ≤ c.replies
  | .answer _ => True

instance (c : Conversation) : ∀ move, Decidable (RepliesOwed c move)
  | .event _ _ => inferInstanceAs (Decidable (_ ≤ _))
  | .answer _ => .isTrue trivial

def negotiating : System Conversation Move := conversation.restrict RepliesOwed

/-! ## The conditions -/

/-- The rectangles after the first one that a parser looks for. -/
def afterMatch (isMatch : Nat → Bool) (rects : List DesktopRect) : List DesktopRect :=
  (rects.dropWhile fun rect => !(rect.extended && isMatch rect.x)).tail

def Silent (rects : List DesktopRect) : Prop := ∀ rect ∈ rects, announces rect = false

instance (rects : List DesktopRect) : Decidable (Silent rects) :=
  inferInstanceAs (Decidable (∀ rect ∈ rects, _))

/-- The first update announces one layout at most, as the initial geometry, and the resize
it leads to can be sent. -/
def FirstLooksAt (answers : ServerAnswers) (p : Negotiation) (rects : List DesktopRect) : Prop :=
  match firstMatch rectIsInitialGeometry rects with
  | none => Silent rects
  | some rect => Silent (afterMatch rectIsInitialGeometry rects) ∧
      answers.transSend (resizeMessage (discovered p rect.layout)) = true

/-- No layout is announced after a reply, and none has been announced before one that says
that the server has not resized. -/
def ConfirmLooksAt (p : Negotiation) (inForce : VncScreenLayout) (rects : List DesktopRect) :
    Prop :=
  match firstMatch rectIsReplyToUs rects with
  | none => True
  | some rect =>
      if rect.y = 0 then
        Silent (afterMatch rectIsReplyToUs rects)
      else
        Silent rects ∧ vncScreenLayoutsEqual p.serverLayout inForce = true

/-- The parser in charge looks at every layout that the rectangles announce. -/
def LooksAt (answers : ServerAnswers) (p : Negotiation) (starts : Bool)
    (inForce : VncScreenLayout) (rects : List DesktopRect) : Prop :=
  match starts, p.resizeStatus with
  | true, .waitingForFirstUpdate => FirstLooksAt answers p rects
  | true, .waitingForResizeConfirm => ConfirmLooksAt p inForce rects
  | _, _ => ∀ rect ∈ rects, isReply rect = false

/-- A resize is asked for when no reply is owed, and before the first update only where it
asks for another layout than the server's. -/
def ResizesInTurn (c : Conversation) (wanted : VncScreenLayout) : Prop :=
  c.replies = 0 ∧ (c.v.resizeStatus = .waitingForFirstUpdate →
    vncScreenLayoutsEqual c.v.serverLayout wanted = false)

def InTurn (c : Conversation) : Move → Prop
  | .event .poll answers =>
      LooksAt answers (negotiation c.v) (arrives c.v) c.inForce (announced c.v)
  | .event (.monitorResize width height monitors) _ =>
      ResizesInTurn c (requestedLayout c.v.multimonConfigured width height monitors)
  | _ => True

instance (answers : ServerAnswers) (p : Negotiation) (rects : List DesktopRect) :
    Decidable (FirstLooksAt answers p rects) :=
  match found : firstMatch rectIsInitialGeometry rects with
  | none => decidable_of_iff (Silent rects) (by simp [FirstLooksAt, found])
  | some rect =>
      decidable_of_iff (Silent (afterMatch rectIsInitialGeometry rects) ∧
        answers.transSend (resizeMessage (discovered p rect.layout)) = true)
        (by simp [FirstLooksAt, found])

instance (p : Negotiation) (inForce : VncScreenLayout) (rects : List DesktopRect) :
    Decidable (ConfirmLooksAt p inForce rects) :=
  match found : firstMatch rectIsReplyToUs rects with
  | none => .isTrue (by simp [ConfirmLooksAt, found])
  | some rect =>
      decidable_of_iff (if rect.y = 0 then Silent (afterMatch rectIsReplyToUs rects) else
        Silent rects ∧ vncScreenLayoutsEqual p.serverLayout inForce = true)
        (by simp [ConfirmLooksAt, found])

instance (answers : ServerAnswers) (p : Negotiation) (inForce : VncScreenLayout)
    (rects : List DesktopRect) : ∀ starts, Decidable (LooksAt answers p starts inForce rects)
  | false => inferInstanceAs (Decidable (∀ rect ∈ rects, _))
  | true =>
      match status : p.resizeStatus with
      | .waitingForFirstUpdate =>
          decidable_of_iff (FirstLooksAt answers p rects) (by simp [LooksAt, status])
      | .waitingForResizeConfirm =>
          decidable_of_iff (ConfirmLooksAt p inForce rects) (by simp [LooksAt, status])
      | .done =>
          decidable_of_iff (∀ rect ∈ rects, isReply rect = false) (by simp [LooksAt, status])

instance (c : Conversation) : ∀ move, Decidable (InTurn c move)
  | .event .poll answers =>
      inferInstanceAs (Decidable
        (LooksAt answers (negotiation c.v) (arrives c.v) c.inForce (announced c.v)))
  | .event (.monitorResize _ _ _) _ => inferInstanceAs (Decidable (_ ∧ _))
  | .event (.modEvent _ _ _ _ _) _ => .isTrue trivial
  | .event (.suppressOutput _) _ => .isTrue trivial
  | .answer _ => .isTrue trivial

/-! ## What an update announces -/

section Announcements

variable {p q : Negotiation} {rects : List DesktopRect}

theorem layouts_equal_refl (layout : VncScreenLayout) :
    vncScreenLayoutsEqual layout layout = true := by
  have screens : layout.s.zip layout.s = layout.s.map fun screen => (screen, screen) :=
    List.zipWith_self
  simp [vncScreenLayoutsEqual, screens, cmpVncScreen]

/-- In the steady state every layout announced is looked at. -/
theorem steady_true {layout : VncScreenLayout} (noReply : ∀ rect ∈ rects, isReply rect = false)
    (same : vncScreenLayoutsEqual p.serverLayout layout = true) :
    vncScreenLayoutsEqual (p.steady rects).serverLayout (lastAnnounced layout rects) = true := by
  induction rects generalizing p layout with
  | nil => exact same
  | cons rect rects ih =>
      have plain := noReply rect (List.mem_cons_self ..)
      have announced : announces rect = true := by simp [announces, plain]
      have rest : ∀ later ∈ rects, isReply later = false :=
        fun later member => noReply later (List.mem_cons_of_mem rect member)
      change vncScreenLayoutsEqual ((p.steadyRect rect).steady rects).serverLayout
        (lastAnnounced (if announces rect = true then rect.layout else layout) rects) = true
      rw [if_pos announced]
      apply ih rest
      unfold Negotiation.steadyRect
      split
      · rename_i ignored
        rcases ignored with ⟨extended, reply | equal⟩
        · exact absurd plain (by simp [isReply, extended, reply])
        · exact equal
      · exact layouts_equal_refl rect.layout

theorem silent_announced (silent : Silent rects) (layout : VncScreenLayout) :
    lastAnnounced layout rects = layout := by
  induction rects generalizing layout with
  | nil => rfl
  | cons rect rects ih =>
      have nothing := silent rect (List.mem_cons_self ..)
      change lastAnnounced (if announces rect = true then rect.layout else layout) rects = layout
      rw [if_neg (by simp [nothing])]
      exact ih (fun later member => silent later (List.mem_cons_of_mem rect member)) layout

/-- With nothing announced after it, the first match is the last announcement. -/
theorem match_announced {isMatch : Nat → Bool} {rect : DesktopRect}
    (found : firstMatch isMatch rects = some rect) (announced : announces rect = true)
    (silent : Silent (afterMatch isMatch rects)) (layout : VncScreenLayout) :
    lastAnnounced layout rects = rect.layout := by
  induction rects generalizing layout with
  | nil => exact absurd found (by simp [firstMatch])
  | cons first rects ih =>
      change lastAnnounced (if announces first = true then first.layout else layout) rects = _
      by_cases here : (first.extended && isMatch first.x) = true
      · obtain rfl : first = rect := by simpa [firstMatch, here] using found
        rw [if_pos announced]
        apply silent_announced
        rw [afterMatch, List.dropWhile_cons_of_neg (by simp [here])] at silent
        exact silent
      · apply ih
        · simpa [firstMatch, here] using found
        · have passed : (!(first.extended && isMatch first.x)) = true := by
            rw [Bool.eq_false_of_not_eq_true here]
            rfl
          rw [afterMatch, List.dropWhile_cons_of_pos
            (p := fun rect : DesktopRect => !(rect.extended && isMatch rect.x)) passed] at silent
          exact silent

end Announcements

/-! ## One event -/

/-- What keeps the picture true. A reply is owed exactly while the module waits for it, and
nothing is known of the server's support before the first update. -/
structure Picture (p : Negotiation) (replies : Nat) (inForce : VncScreenLayout)
    (updated : Bool) : Prop where
  settled : p.resizeStatus ≠ .waitingForResizeConfirm → replies = 0 ∧
    vncScreenLayoutsEqual p.serverLayout inForce = true
  owed : p.resizeStatus = .waitingForResizeConfirm → replies = 1
  fresh : p.resizeStatus = .waitingForFirstUpdate → p.resizeSupported = .unknown ∧
    updated = false ∧ p.parseState = .waitMessageType
  known : p.resizeStatus ≠ .waitingForFirstUpdate → p.resizeSupported ≠ .unknown

section Sizes

variable {p q : Negotiation}

@[simp] theorem size_requests_append (sent later : List (List Byte)) :
    sizeRequests (sent ++ later) = sizeRequests sent + sizeRequests later :=
  List.countP_append ..

theorem resize_message_head : (resizeMessage p).head? = some 251 := rfl

theorem sizes_send {incremental x y cx cy : Int} :
    sizeRequests (p.send (framebufferUpdateRequest incremental x y cx cy)).sent =
      sizeRequests p.sent := by
  simp [Negotiation.send, sizeRequests, update_request_head]

theorem sizes_next : sizeRequests p.requestNext.sent = sizeRequests p.sent := by
  unfold Negotiation.requestNext
  split
  · exact sizes_send
  · rfl

/-- The request for the status only sends. -/
theorem status_sends : ∃ sent, p.requestForStatus = { p with sent := sent } ∧
    sizeRequests sent = sizeRequests p.sent := by
  unfold Negotiation.requestForStatus
  split
  · exact ⟨_, rfl, sizes_send⟩
  split
  · exact ⟨_, rfl, sizes_send⟩
  · exact ⟨_, rfl, rfl⟩

theorem next_sends : ∃ sent, p.requestNext = { p with sent := sent } ∧
    sizeRequests sent = sizeRequests p.sent := by
  refine ⟨p.requestNext.sent, ?_, sizes_next⟩
  unfold Negotiation.requestNext
  split <;> rfl

theorem asked_waits : (askResize p).resizeStatus = .waitingForResizeConfirm := rfl

theorem sizes_asked : sizeRequests (askResize p).sent = sizeRequests p.sent + 1 := by
  simp [askResize, sizeRequests, resize_message_head]

end Sizes

section Steps

variable {p q : Negotiation} {replies : Nat} {inForce : VncScreenLayout} {updated : Bool}
  {rects : List DesktopRect}

theorem count_no_reply (noReply : ∀ rect ∈ rects, isReply rect = false) :
    rects.countP isReply = 0 := by
  rw [List.countP_eq_zero]
  exact fun rect member => by simp [noReply rect member]

/-- A step that leaves the status and the support as they are, and sends no SetDesktopSize. -/
theorem picture_kept (picture : Picture p replies inForce updated)
    (noReply : ∀ rect ∈ rects, isReply rect = false)
    (status : q.resizeStatus = p.resizeStatus) (support : q.resizeSupported = p.resizeSupported)
    (server : q.serverLayout = (p.steady rects).serverLayout)
    (sizes : sizeRequests q.sent = sizeRequests p.sent) {completed : Bool}
    (fresh : p.resizeStatus = .waitingForFirstUpdate →
      completed = false ∧ q.parseState = .waitMessageType) :
    Picture q (replies - rects.countP isReply + (sizeRequests q.sent - sizeRequests p.sent))
      (lastAnnounced inForce rects) (updated || completed) := by
  rw [count_no_reply noReply, sizes, Nat.sub_self, Nat.sub_zero, Nat.add_zero]
  constructor
  · intro settled
    rw [status] at settled
    obtain ⟨none_owed, same⟩ := picture.settled settled
    exact ⟨none_owed, server ▸ steady_true noReply same⟩
  · exact fun waiting => picture.owed (status.symm.trans waiting)
  · intro first
    obtain ⟨unknown, notYet, -⟩ := picture.fresh (status.symm.trans first)
    obtain ⟨open_yet, parse⟩ := fresh (status.symm.trans first)
    exact ⟨support.trans unknown, by rw [notYet, open_yet]; rfl, parse⟩
  · intro known
    rw [support]
    exact picture.known (status ▸ known)

theorem initial_announces {rect : DesktopRect}
    (found : firstMatch rectIsInitialGeometry rects = some rect) : announces rect = true := by
  have initial := List.find?_some found
  have other : rect.x ≠ 1 := by
    intro reply
    simp [rectIsInitialGeometry, reply] at initial
  simp [announces, isReply, other]

/-- A first update settles the negotiation or asks for a resize. -/
theorem picture_first {answers : ServerAnswers} (picture : Picture p replies inForce updated)
    (status : p.resizeStatus = .waitingForFirstUpdate) (first : FirstUpdate answers p rects q)
    (looks : FirstLooksAt answers p rects) (owed : rects.countP isReply ≤ replies)
    (completed : Bool) :
    Picture q (replies - rects.countP isReply + (sizeRequests q.sent - sizeRequests p.sent))
      (lastAnnounced inForce rects) (updated || completed) := by
  obtain ⟨none_owed, same⟩ := picture.settled (by rw [status]; simp)
  subst none_owed
  have noReply : rects.countP isReply = 0 := Nat.le_zero.mp owed
  rw [noReply]
  unfold FirstLooksAt at looks
  cases first with
  | supported rect q found resized =>
      rw [found] at looks
      obtain ⟨sent, requested, sizes⟩ := @status_sends q
      rw [requested, match_announced found (initial_announces found) looks.1]
      cases resized with
      | alike equal =>
          have nothing : sizeRequests sent = sizeRequests p.sent := sizes
          rw [nothing, Nat.sub_self, Nat.sub_self]
          exact ⟨fun _ => ⟨rfl, layouts_equal_refl _⟩, by simp, by simp, by simp [discovered]⟩
      | asked different supported =>
          have one : sizeRequests sent = sizeRequests p.sent + 1 := sizes.trans sizes_asked
          rw [one, Nat.add_sub_cancel_left]
          exact ⟨by simp [askResize], fun _ => rfl, by simp [askResize],
            by simp [askResize, discovered]⟩
  | unsent rect found refused =>
      rw [found] at looks
      exact absurd (looks.2.symm.trans refused) (by simp)
  | unsupported found =>
      rw [found] at looks
      obtain ⟨sent, requested, sizes⟩ := @status_sends (unsupported p)
      have nothing : sizeRequests sent = sizeRequests p.sent := sizes
      rw [requested, silent_announced looks, nothing, Nat.sub_self, Nat.sub_self]
      exact ⟨fun _ => ⟨rfl, same⟩, by simp [unsupported], by simp [unsupported],
        by simp [unsupported]⟩

theorem picture_confirm (picture : Picture p replies inForce updated)
    (status : p.resizeStatus = .waitingForResizeConfirm) (looks : ConfirmLooksAt p inForce rects)
    (owed : rects.countP isReply ≤ replies) (completed : Bool) :
    Picture (confirmUpdate p rects)
      (replies - rects.countP isReply +
        (sizeRequests (confirmUpdate p rects).sent - sizeRequests p.sent))
      (lastAnnounced inForce rects) (updated || completed) := by
  have one := picture.owed status
  subst one
  have known := picture.known (by rw [status]; simp)
  unfold ConfirmLooksAt at looks
  unfold confirmUpdate
  cases found : firstMatch rectIsReplyToUs rects with
  | none =>
      obtain ⟨sent, requested, sizes⟩ := @status_sends p
      have noReply : ∀ rect ∈ rects, isReply rect = false := by
        intro rect member
        exact Bool.eq_false_of_not_eq_true (List.find?_eq_none.mp found rect member)
      dsimp only
      rw [requested, count_no_reply noReply, sizes, Nat.sub_self]
      exact ⟨fun settled => absurd status settled, fun _ => rfl, by simp [status], fun _ => known⟩
  | some rect =>
      rw [found] at looks
      have reply : isReply rect = true := List.find?_some found
      have some_reply : 0 < rects.countP isReply :=
        List.countP_pos_iff.mpr ⟨rect, List.mem_of_find?_eq_some found, reply⟩
      have replied : rects.countP isReply = 1 := by omega
      obtain ⟨sent, requested, sizes⟩ := @status_sends (confirmed p rect)
      have nothing : sizeRequests sent = sizeRequests p.sent := by
        rw [sizes]
        unfold confirmed
        split <;> rfl
      dsimp only
      rw [requested, replied, nothing, Nat.sub_self, Nat.sub_self]
      unfold confirmed
      by_cases success : rect.y = 0
      · simp only [success, if_true] at looks ⊢
        have announced : announces rect = true := by simp [announces, success]
        rw [match_announced found announced looks]
        exact ⟨fun _ => ⟨rfl, layouts_equal_refl _⟩, by simp, by simp, fun _ => known⟩
      · simp only [success, if_false] at looks ⊢
        rw [silent_announced looks.1]
        exact ⟨fun _ => ⟨rfl, looks.2⟩, by simp, by simp, fun _ => known⟩

theorem picture_poll {answers : ServerAnswers} {starts : Bool}
    (picture : Picture p replies inForce updated) (step : PollStep answers p starts rects q)
    (looks : LooksAt answers p starts inForce rects) (owed : rects.countP isReply ≤ replies) :
    Picture q (replies - rects.countP isReply + (sizeRequests q.sent - sizeRequests p.sent))
      (lastAnnounced inForce rects)
      (updated || ((starts || p.parseState ≠ .waitMessageType) &&
        q.parseState = .waitMessageType)) := by
  cases step with
  | idle =>
      refine picture_kept picture (by simp) rfl rfl rfl rfl fun first => ?_
      obtain ⟨-, -, waiting⟩ := picture.fresh first
      exact ⟨by simp [waiting], waiting⟩
  | begins settled =>
      refine picture_kept picture (by simp) ?_ ?_ ?_ ?_ fun first => ?_
      · rfl
      · rfl
      · rfl
      · rfl
      · exact absurd (first.symm.trans settled) (by simp)
  | goesOn _ _ mid progress =>
      have noReply : ∀ rect ∈ rects, isReply rect = false := looks
      obtain ⟨client, server, layouts⟩ := @steady_layouts p rects
      rcases progress with ⟨state, -, rfl⟩ | rfl
      · refine picture_kept picture noReply ?_ ?_ ?_ ?_ fun first => ?_
        · rw [layouts]
        · rw [layouts]
        · rfl
        · rw [layouts]
        · exact absurd (picture.fresh first).2.2 mid.2
      · obtain ⟨sent, requested, sizes⟩ := @next_sends (p.steady rects)
        rw [requested]
        refine picture_kept picture noReply ?_ ?_ ?_ ?_ fun first => ?_
        · rw [layouts]
        · rw [layouts]
        · rfl
        · rw [sizes, layouts]
        · exact absurd (picture.fresh first).2.2 mid.2
  | steady _ settled =>
      have noReply : ∀ rect ∈ rects, isReply rect = false := by
        simpa [LooksAt, settled] using looks
      obtain ⟨client, server, layouts⟩ := @steady_layouts p rects
      obtain ⟨sent, requested, sizes⟩ := @next_sends (p.steady rects)
      rw [requested]
      refine picture_kept picture noReply ?_ ?_ ?_ ?_ fun first => ?_
      · rw [layouts]
      · rw [layouts]
      · rfl
      · rw [sizes, layouts]
      · exact absurd (first.symm.trans settled) (by simp)
  | first _ _ status first =>
      have looksFirst : FirstLooksAt answers p rects := by simpa [LooksAt, status] using looks
      exact picture_first picture status first looksFirst owed _
  | confirm _ status =>
      have looksConfirm : ConfirmLooksAt p inForce rects := by simpa [LooksAt, status] using looks
      exact picture_confirm picture status looksConfirm owed _

/-- A call of the host that only asks for a resize in turn. -/
theorem picture_host {c : Conversation} {event : Event} {answers : ServerAnswers}
    (picture : Picture (negotiation c.v) c.replies c.inForce c.updated) (host : event ≠ .poll)
    (step : HostStep c.v event q) (inTurn : InTurn c (.event event answers)) :
    Picture q (c.replies + (sizeRequests q.sent - sizeRequests (negotiation c.v).sent)) c.inForce
      (c.updated || (c.v.framebufferParseState ≠ .waitMessageType &&
        q.parseState = .waitMessageType)) := by
  have kept := @picture_kept (negotiation c.v) q c.replies c.inForce c.updated [] picture (by simp)
  have idle : c.v.resizeStatus = .waitingForFirstUpdate →
      q.parseState = c.v.framebufferParseState →
      (decide (c.v.framebufferParseState ≠ .waitMessageType) &&
        decide (q.parseState = .waitMessageType)) = false ∧ q.parseState = .waitMessageType := by
    intro first same
    obtain ⟨-, -, waiting⟩ := picture.fresh first
    have still : c.v.framebufferParseState = .waitMessageType := waiting
    exact ⟨by simp [still], same.trans still⟩
  cases step with
  | input msg param1 param2 param3 param4 after adds =>
      obtain ⟨messages, plain, reached⟩ := adds
      have nothing : sizeRequests messages = 0 := by
        rw [sizeRequests, List.countP_eq_zero]
        exact fun message member => by simpa using plain message member
      rw [reached] at kept idle ⊢
      exact kept rfl rfl rfl (by simp [nothing]) fun first => idle first rfl
  | hidden suppress _ => exact kept rfl rfl rfl rfl fun first => idle first rfl
  | shown => exact kept rfl rfl rfl sizes_send fun first => idle first rfl
  | resized width height monitors q resized =>
      obtain ⟨none_owed, different⟩ := inTurn
      have notWaiting : c.v.resizeStatus ≠ .waitingForResizeConfirm := by
        intro waiting
        have one := picture.owed waiting
        omega
      cases resized with
      | alike equal =>
          have notFirst : c.v.resizeStatus ≠ .waitingForFirstUpdate := by
            intro first
            exact absurd ((different first).symm.trans equal) (by simp)
          rw [if_neg (by simp)]
          have nothing : c.replies + (sizeRequests (negotiation c.v).sent -
              sizeRequests (negotiation c.v).sent) = 0 := by omega
          exact ⟨fun _ => ⟨nothing, (picture.settled notWaiting).2⟩, by simp, by simp,
            fun _ => picture.known notFirst⟩
      | asked _ supported =>
          rw [if_pos asked_waits]
          obtain ⟨sent, requested, sizes⟩ := @status_sends (askResize { negotiation c.v with
            clientLayout := requestedLayout c.v.multimonConfigured width height monitors })
          have one : sizeRequests sent = sizeRequests (negotiation c.v).sent + 1 :=
            sizes.trans sizes_asked
          have owed : c.replies + (sizeRequests sent - sizeRequests (negotiation c.v).sent) = 1 := by
            omega
          rw [requested]
          have known : c.v.resizeSupported ≠ .unknown := by
            rw [show c.v.resizeSupported = .supported from supported]
            simp
          exact ⟨by simp [askResize], fun _ => owed, by simp [askResize], fun _ => known⟩
  | refused width height monitors _ _ => exact kept rfl rfl rfl rfl fun first => idle first rfl

end Steps

/-! ## Every run -/

def Truthful (c : Conversation) : Prop :=
  Picture (negotiation c.v) c.replies c.inForce c.updated

theorem truthful_start {c : Conversation} (started : Started c) : Truthful c := by
  obtain ⟨answers, fresh, connected, returned, conversed⟩ := started
  have start := start_negotiation returned
  rw [conversed]
  unfold Truthful
  simp only []
  have layout : c.v.serverLayout = (negotiation c.v).serverLayout := rfl
  rw [layout, start]
  refine ⟨fun _ => ⟨rfl, layouts_equal_refl _⟩, ?_, fun _ => ⟨rfl, rfl, connected.parseState⟩, ?_⟩
  · simp [startOf, Negotiation.send]
  · simp [startOf, Negotiation.send]

theorem truthful_event {c : Conversation} {event : Event} {answers : ServerAnswers} {after : Vnc}
    (truthful : Truthful c) (goes : GoesOn answers event c.v after)
    (owed : (announcedAt c.v event).countP isReply ≤ c.replies)
    (inTurn : InTurn c (.event event answers)) : Truthful (advance c event after) := by
  by_cases poll : event = .poll
  · subst poll
    have returned : Returns (transCheckWaitObjs answers) c.v () after := by
      rcases goes with returned | ⟨host, -⟩
      · exact returned
      · exact absurd rfl host
    have step := ensures_returns (poll_step answers c.v) rfl returned
    exact picture_poll truthful step inTurn owed
  · have step := host_step answers poll goes
    have reached := picture_host truthful poll step inTurn
    cases event with
    | poll => exact absurd rfl poll
    | _ => exact reached

/-- Where every layout announced is looked at and resizes are asked for in turn, the picture
of the server layout is true whenever no reply is owed, and it is known after the first
update whether the server can be resized. -/
theorem server_layout_true {c : Conversation}
    (reachable : (negotiating.restrict InTurn).Reachable c) :
    (c.replies = 0 → vncScreenLayoutsEqual c.v.serverLayout c.inForce = true) ∧
      (c.updated = true → c.v.resizeSupported ≠ .unknown) := by
  have truthful : Truthful c := by
    apply System.reachable_invariant Truthful _ _ reachable
    · exact fun start started => truthful_start started
    · rintro before move after truthful ⟨inTurn, owed, stepped⟩
      cases move with
      | answer received =>
          obtain ⟨-, -, rfl⟩ := stepped
          exact truthful
      | event event answers =>
          obtain ⟨goes, advanced⟩ := stepped
          rw [advanced]
          exact truthful_event truthful goes owed inTurn
  constructor
  · intro none_owed
    by_cases waiting : c.v.resizeStatus = .waitingForResizeConfirm
    · exact absurd ((truthful.owed waiting).symm.trans none_owed) (by simp)
    · exact (truthful.settled waiting).2
  · intro updated
    apply truthful.known
    intro first
    exact absurd ((truthful.fresh first).2.1.symm.trans updated) (by simp)

/-! ## Small conversations -/

/-- An update of one ExtendedDesktopSize rectangle with one screen, piece by piece. -/
def extendedUpdate (x y width height : Nat) : List (List Byte) :=
  [[0], [0, 0, 1],
    outUint16Be x ++ outUint16Be y ++ outUint16Be width ++ outUint16Be height ++
      outUint32Be rfbEncExtendedDesktopSize,
    [1, 0, 0, 0, 0, 0, 0, 0, 0, 0, 0, 0] ++ outUint16Be width ++ outUint16Be height ++ [0, 0, 0, 0]]

def polls (count : Nat) : List Move := List.replicate count (.event .poll willing)

def asks (width height : Int) : Move := .event (.monitorResize width height []) willing

/-- The server starts with another layout, is asked for the client's and confirms it. -/
def confirmedOnce : Conversation :=
  (polls 2).foldl converse (started (extendedUpdate 0 0 5 5 ++ extendedUpdate 1 0 4 4))

theorem run_in_turn {c : Conversation} {moves : List Move}
    (met : System.AllMeet converse
      (fun c move => InTurn c move ∧ RepliesOwed c move ∧ Meets c move) c moves) :
    (negotiating.restrict InTurn).Run c moves (moves.foldl converse c) := by
  apply System.run_guarded _ met
  exact fun c move met => ⟨met.1, met.2.1, meets_step met.2.2⟩

theorem server_layout_true_confirmed : confirmedOnce.replies = 0 ∧ confirmedOnce.updated = true ∧
    vncScreenLayoutsEqual confirmedOnce.v.serverLayout confirmedOnce.inForce = true ∧
    confirmedOnce.v.resizeSupported ≠ .unknown := by
  have reachable : (negotiating.restrict InTurn).Reachable confirmedOnce :=
    ⟨_, _, started_initial _, run_in_turn (by decide +kernel)⟩
  have holds := server_layout_true reachable
  have none_owed : confirmedOnce.replies = 0 := by decide +kernel
  have updated : confirmedOnce.updated = true := by decide +kernel
  exact ⟨none_owed, updated, holds.1 none_owed, holds.2 updated⟩

/-- Two resizes are asked for before the first reply. -/
def askedTwice : List Move := polls 1 ++ [asks 5 5, asks 6 6] ++ polls 4

/-- The layout the server has already is asked for before the first update. -/
def askedEarly : List Move := asks 4 4 :: polls 3

theorem reached_by {sock : List (List Byte)} {moves : List Move}
    (met : System.AllMeet converse (fun c move => RepliesOwed c move ∧ Meets c move)
      (started sock) moves) : negotiating.Reachable (moves.foldl converse (started sock)) := by
  refine ⟨started sock, moves, started_initial sock, ?_⟩
  apply System.run_guarded _ met
  exact fun c move met => ⟨met.1, meets_step met.2⟩

theorem picture_lost :
    let twice := askedTwice.foldl converse (started
      (extendedUpdate 0 0 4 4 ++ extendedUpdate 1 0 5 5 ++ extendedUpdate 1 0 6 6))
    let early := askedEarly.foldl converse (started (extendedUpdate 0 0 4 4))
    (negotiating.Reachable twice ∧ twice.replies = 0 ∧
        twice.v.serverLayout = initSingleScreenLayout 5 5 ∧
        twice.inForce = initSingleScreenLayout 6 6) ∧
      (negotiating.Reachable early ∧ early.updated = true ∧
        early.v.resizeSupported = .unknown) := by
  refine ⟨⟨reached_by ?_, ?_, ?_, ?_⟩, reached_by ?_, ?_, ?_⟩
  all_goals decide +kernel

end XrdpConsole.VncServerLayout
