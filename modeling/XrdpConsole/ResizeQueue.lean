import Mathlib.Data.List.Induction
import XrdpConsole.MmFrames

/-!
# The queue of resize requests

Where each request goes that is put on the queue, and what the queue leaves behind
once it is empty and every resize has succeeded. A request is turned away by its
width and height alone: one that only arranges the monitors in another way is
dropped as being of the current size.
-/

namespace XrdpConsole.ResizeQueue

open XrdpConsole.Library
open XrdpConsole.Region
open XrdpConsole.MmState
open XrdpConsole.PlanarSend
open XrdpConsole.PlanarWorker
open XrdpConsole.ResizeMachine
open XrdpConsole.MmSession
open XrdpConsole.MmFrames

set_option autoImplicit false

variable {R : Type}

/-! ## What an event does to the queue -/

def SameDimensions (left right : DisplaySizeDescription) : Prop :=
  left.sessionWidth = right.sessionWidth ∧ left.sessionHeight = right.sessionHeight

instance (left right : DisplaySizeDescription) : Decidable (SameDimensions left right) :=
  inferInstanceAs (Decidable (_ ∧ _))

def displaySizes (mm : Mm R) : DisplaySizeDescription := mm.wm.clientInfo.displaySizes

def requestOf : Event → Option ResizeQueueItem
  | .resizeRequest src description => some { src, description }
  | _ => none

/-- The resize has taken its sizes over. -/
def sizesTaken : DisplayResizeState → Bool
  | .xrdpCoreReset => true
  | .xrdpCoreResetProcessing => true
  | .xrdpCoreResetProcessed => true
  | .encoderCreate => true
  | .serverInvalidate => true
  | .complete => true
  | _ => false

/-- The sizes once the resize has moved on to `state`. -/
def SizesFollow (resize : DisplayControlMonitorLayoutData) (state : DisplayResizeState)
    (before after : DisplaySizeDescription) : Prop :=
  after = before ∧ (sizesTaken state = true → sizesTaken resize.state = true) ∨
    after = resize.description

/-- A request of the client takes the place of another at the end of the queue. -/
def Supersedes (mm : Mm R) (src : ResizeQueueSource) : Prop :=
  src = .fromClient ∧ (mm.resizeQueue.getLast?.map (·.src)) = some .fromClient

instance (mm : Mm R) (src : ResizeQueueSource) : Decidable (Supersedes mm src) :=
  inferInstanceAs (Decidable (_ ∧ _))

/-- Every way a request can leave the queue is here: a client request is superseded by one
that follows it, and the head of the queue becomes the resize under way, or is dropped
because it has no size or the current one. -/
inductive QueueStep (before : Mm R) : Event → Mm R → Prop where
  | kept (event : Event) (after : Mm R) : requestOf event = none →
      after.resizeQueue = before.resizeQueue → after.resizeData = before.resizeData → displaySizes after = displaySizes before →
      QueueStep before event after
  | requested (src : ResizeQueueSource) (description : DisplaySizeDescription) (after : Mm R) :
      ¬Supersedes before src →
      after.resizeQueue = before.resizeQueue ++ [⟨src, description⟩] →
      after.resizeData = before.resizeData → displaySizes after = displaySizes before →
      QueueStep before (.resizeRequest src description) after
  | superseded (earlier : List ResizeQueueItem) (prev : ResizeQueueItem)
      (description : DisplaySizeDescription) (after : Mm R) :
      before.resizeQueue = earlier ++ [prev] → prev.src = .fromClient →
      after.resizeQueue = earlier ++ [⟨.fromClient, description⟩] →
      after.resizeData = before.resizeData → displaySizes after = displaySizes before →
      QueueStep before (.resizeRequest .fromClient description) after
  | started (answers : ResizeAnswers) (head : ResizeQueueItem) (rest : List ResizeQueueItem)
      (after : Mm R) : before.resizeData = none → before.resizeQueue = head :: rest →
      HasSize head.description → ¬SameDimensions head.description (displaySizes before) →
      after.resizeQueue = rest →
      after.resizeData = some { description := head.description, state := .encoderDelete } →
      displaySizes after = displaySizes before → QueueStep before (.resizeReady answers) after
  | dropped (answers : ResizeAnswers) (head : ResizeQueueItem) (rest : List ResizeQueueItem)
      (after : Mm R) : before.resizeData = none → before.resizeQueue = head :: rest →
      ¬HasSize head.description ∨ SameDimensions head.description (displaySizes before) →
      after.resizeQueue = rest → after.resizeData = none →
      displaySizes after = displaySizes before → QueueStep before (.resizeReady answers) after
  | advanced (event : Event) (resize : DisplayControlMonitorLayoutData)
      (state : DisplayResizeState) (after : Mm R) : requestOf event = none →
      before.resizeData = some resize → after.resizeQueue = before.resizeQueue →
      after.resizeData = some { resize with state } →
      SizesFollow resize state (displaySizes before) (displaySizes after) →
      QueueStep before event after
  | cleared (answers : ResizeAnswers) (resize : DisplayControlMonitorLayoutData) (after : Mm R) :
      before.resizeData = some resize → resize.state = .complete ∨ resize.state = .error →
      after.resizeQueue = before.resizeQueue → after.resizeData = none →
      displaySizes after = displaySizes before → QueueStep before (.resizeReady answers) after

theorem queue_output {before after : Mm R} {event : Event} (quiet : requestOf event = none)
    (only : OutputOnly before after) : QueueStep before event after := by
  rw [only]
  exact .kept event _ quiet rfl rfl rfl

theorem add_resize_request_step (before : Mm R) (src : ResizeQueueSource)
    (description : DisplaySizeDescription) :
    QueueStep before (.resizeRequest src description)
      (addResizeRequestToQueue before src description) := by
  by_cases supersedes : Supersedes before src
  · obtain ⟨rfl, last⟩ := supersedes
    obtain ⟨prev, found, fromClient⟩ := Option.map_eq_some_iff.mp last
    obtain ⟨earlier, queue⟩ := List.getLast?_eq_some_iff.mp found
    apply QueueStep.superseded earlier prev description _ queue fromClient
    · simp only [addResizeRequestToQueue, last, and_self, if_true]
      rw [queue, List.dropLast_concat]
    · rfl
    · rfl
  · apply QueueStep.requested src description _ supersedes
    · rw [Supersedes] at supersedes
      simp only [addResizeRequestToQueue]
      rw [if_neg supersedes]
    · rfl
    · rfl

theorem start_resize_step (before : Mm R) (answers : ResizeAnswers) {head : ResizeQueueItem}
    {rest : List ResizeQueueItem} (none_active : before.resizeData = none)
    (queued : before.resizeQueue = head :: rest) :
    QueueStep before (.resizeReady answers) (startResize before head rest) := by
  by_cases sized : HasSize head.description
  · by_cases same : SameDimensions head.description (displaySizes before)
    · apply QueueStep.dropped answers head rest _ none_active queued (.inr same)
      all_goals
        simp only [startResize]
        rw [if_neg (by simp only [SameDimensions, displaySizes] at same; tauto)]
      · exact none_active
      · rfl
    · apply QueueStep.started answers head rest _ none_active queued sized same
      all_goals
        simp only [startResize]
        rw [if_pos ⟨by simp only [HasSize] at sized; omega, same⟩]
      · rfl
  · apply QueueStep.dropped answers head rest _ none_active queued (.inl sized)
    all_goals
      simp only [startResize]
      rw [if_neg (by simp only [HasSize] at sized; omega)]
    · exact none_active
    · rfl

theorem sizes_follow {resize : DisplayControlMonitorLayoutData} {state : DisplayResizeState}
    (follows : Follows resize.state state) (sizes : DisplaySizeDescription) :
    SizesFollow resize state sizes sizes := by
  left
  refine ⟨rfl, fun taken => ?_⟩
  generalize resize.state = before at follows
  cases follows with
  | coreReset => rfl
  | created => rfl
  | _ => simp [sizesTaken] at taken

theorem resize_step_queue {before after : Mm R} {resize : DisplayControlMonitorLayoutData}
    {event : Event} (quiet : requestOf event = none) (active : before.resizeData = some resize)
    (step : ResizeStep before resize after) : QueueStep before event after := by
  have moved : ∀ state, before.resizeData.map ({ · with state }) = some { resize with state } := by
    intro state
    rw [active]
    rfl
  cases step with
  | waiting => exact .kept event before quiet rfl rfl rfl
  | suppressed output state deleting next =>
      refine .advanced event resize state _ quiet active rfl ?_ (.inl ⟨rfl, fun taken => ?_⟩)
      · exact moved state
      · rcases next with rfl | rfl <;> simp [sizesTaken] at taken
  | advanced output state follows =>
      refine .advanced event resize state _ quiet active rfl ?_ ?_
      · exact moved state
      · exact sizes_follow follows (displaySizes before)
  | synced output state _ _ =>
      refine .advanced event resize state _ quiet active rfl ?_ (.inr rfl)
      exact moved state
  | resized output bitmapMoved creating =>
      refine .advanced event resize .complete _ quiet active rfl ?_ (.inl ⟨rfl, fun _ => ?_⟩)
      · exact moved .complete
      · rw [creating]
        rfl

/-- The event that wakes the queue up is no part of it. -/
theorem queue_step_ready {before after : Mm R} {resizeReady : Bool} {event : Event}
    (step : QueueStep { before with resizeReady } event after) : QueueStep before event after := by
  cases step with
  | kept _ _ quiet queue data sizes => exact .kept _ _ quiet queue data sizes
  | requested src description _ other queue data sizes =>
      exact .requested src description _ other queue data sizes
  | superseded earlier prev description _ last fromClient queue data sizes =>
      exact .superseded earlier prev description _ last fromClient queue data sizes
  | started answers head rest _ none_active queued sized other queue data sizes =>
      exact .started answers head rest _ none_active queued sized other queue data sizes
  | dropped answers head rest _ none_active queued reason queue data sizes =>
      exact .dropped answers head rest _ none_active queued reason queue data sizes
  | advanced _ resize state _ quiet active queue data sizes =>
      exact .advanced _ resize state _ quiet active queue data sizes
  | cleared answers resize _ active ended queue data sizes =>
      exact .cleared answers resize _ active ended queue data sizes

theorem resize_ready_step (before : Mm R) (answers : ResizeAnswers) :
    QueueStep before (.resizeReady answers) (checkResizeReady before answers) := by
  unfold checkResizeReady
  split
  · unfold dynamicMonitorProcessQueue
    split
    · exact .kept _ _ rfl rfl rfl rfl
    · split
      · rename_i none_active
        split
        · exact .kept _ _ rfl rfl rfl rfl
        · rename_i head rest queued
          exact queue_step_ready (start_resize_step { before with resizeReady := false } answers
            none_active queued)
      · rename_i resize active
        split
        · rename_i ended
          exact .cleared answers resize _ active ended rfl rfl rfl
        · exact queue_step_ready (resize_step_queue rfl active
            (process_resize_step { before with resizeReady := false } resize answers))
  · exact .kept _ _ rfl rfl rfl rfl

theorem state_answer_step {before : Mm R} {event : Event} (quiet : requestOf event = none)
    {waiting next : DisplayResizeState}
    (active : before.resizeData.map (·.state) = some waiting)
    (taken : sizesTaken next = true → sizesTaken waiting = true) :
    QueueStep before event (advanceResizeStateMachine before next) := by
  obtain ⟨resize, same, rfl⟩ := Option.map_eq_some_iff.mp active
  refine .advanced event resize next _ quiet same rfl ?_ (.inl ⟨rfl, taken⟩)
  simp [advanceResizeStateMachine, same]

variable [Pixman R]

theorem caps_advertise_queue (before : Mm R) (best : Option (Int × Int))
    (framesInFlight : Option Int) :
    QueueStep before (.capsAdvertise best framesInFlight)
      (xrdpMmEgfxCapsAdvertise before best framesInFlight) := by
  cases best with
  | none => exact .kept _ _ rfl rfl rfl rfl
  | some codec =>
      have confirmed := output_only_confirm before codec framesInFlight
      simp only [xrdpMmEgfxCapsAdvertise, xrdpMmEgfxInvalidateWmScreen]
      generalize confirmCaps before codec framesInFlight = middle at confirmed ⊢
      rw [confirmed]
      split
      · exact .kept _ _ rfl rfl rfl rfl
      · exact .kept _ _ rfl rfl rfl rfl

theorem queue_step (before : Mm R) (event : Event) :
    QueueStep before event (runEvent before event) := by
  cases event with
  | beginUpdate => exact .kept _ _ rfl rfl rfl rfl
  | paint paint =>
      simp only [runEvent, serverPaint]
      split
      · exact .kept _ _ rfl rfl rfl rfl
      · exact .kept _ _ rfl rfl rfl rfl
  | endUpdate =>
      simp only [runEvent, serverEndUpdate, addDirtyRegionToPlanarList]
      split
      · exact .kept _ _ rfl rfl rfl rfl
      · split
        · split
          · exact .kept _ _ rfl rfl rfl rfl
          · exact .kept _ _ rfl rfl rfl rfl
        · exact .kept _ _ rfl rfl rfl rfl
  | clientSuppressOutput suppress => exact .kept _ _ rfl rfl rfl rfl
  | coreSuppressOutput suppress => exact .kept _ _ rfl rfl rfl rfl
  | capsAdvertise best framesInFlight => exact caps_advertise_queue before best framesInFlight
  | frameAck suspend frameId =>
      exact queue_output rfl (output_only_frame_ack before suspend frameId)
  | resizeRequest src description => exact add_resize_request_step before src description
  | resizeReady answers => exact resize_ready_step before answers
  | monitorResizeDone =>
      simp only [runEvent, serverMonitorResizeDone]
      split
      · rename_i waiting
        exact state_answer_step rfl waiting (by simp [sizesTaken])
      · exact .kept _ _ rfl rfl rfl rfl
  | upAndRunning =>
      simp only [runEvent, xrdpMmUpAndRunning]
      split
      · rename_i waiting
        exact state_answer_step rfl waiting (by simp [sizesTaken])
      · exact .kept _ _ rfl rfl rfl rfl
  | draw now =>
      rcases check_screen_dirty_frame before now with same | ⟨output, same⟩
      · rw [runEvent, same]
        exact .kept _ _ rfl rfl rfl rfl
      · rw [runEvent, same]
        exact .kept _ _ rfl rfl rfl rfl
  | encDone => exact queue_output rfl (output_only_enc_done before)
  | workerTakes allocs => exact .kept _ _ rfl rfl rfl rfl
  | workerStep => exact .kept _ _ rfl rfl rfl rfl

/-! ## What the requests add up to -/

/-- The requests made so far without those superseded in the queue. -/
def recordRequest (mm : Mm R) (event : Event) (standing : List ResizeQueueItem) :
    List ResizeQueueItem :=
  match requestOf event with
  | none => standing
  | some item =>
      if Supersedes mm item.src then standing.dropLast ++ [item] else standing ++ [item]

/-- The sizes after a request has come to the head of the queue. -/
def applyRequest (current : DisplaySizeDescription) (item : ResizeQueueItem) :
    DisplaySizeDescription :=
  if HasSize item.description ∧ ¬SameDimensions item.description current then item.description
  else current

def applyRequests (initial : DisplaySizeDescription) (items : List ResizeQueueItem) :
    DisplaySizeDescription := items.foldl applyRequest initial

theorem apply_requests_append (initial : DisplaySizeDescription) (items : List ResizeQueueItem)
    (item : ResizeQueueItem) :
    applyRequests initial (items ++ [item]) = applyRequest (applyRequests initial items) item := by
  simp [applyRequests]

/-- The last request that names a size. -/
def lastSized (items : List ResizeQueueItem) : Option ResizeQueueItem :=
  (items.filter fun item => HasSize item.description).getLast?

theorem last_sized_append (items : List ResizeQueueItem) (item : ResizeQueueItem) :
    lastSized (items ++ [item]) =
      if HasSize item.description then some item else lastSized items := by
  by_cases sized : HasSize item.description
  · simp [lastSized, sized]
  · simp [lastSized, sized]

/-- Whatever was dropped for its size, the dimensions are those of the last request with a
size. -/
theorem apply_requests_last (initial : DisplaySizeDescription) (items : List ResizeQueueItem)
    {item : ResizeQueueItem} (last : lastSized items = some item) :
    SameDimensions (applyRequests initial items) item.description := by
  induction items using List.reverseRecOn with
  | nil => simp [lastSized] at last
  | append_singleton items latest ih =>
      rw [last_sized_append] at last
      rw [apply_requests_append]
      split at last
      · rename_i sized
        obtain rfl := Option.some.inj last
        by_cases same : SameDimensions latest.description (applyRequests initial items)
        · rw [applyRequest, if_neg (by tauto)]
          exact ⟨same.1.symm, same.2.symm⟩
        · rw [applyRequest, if_pos ⟨sized, same⟩]
          exact ⟨rfl, rfl⟩
      · rename_i no_size
        rw [applyRequest, if_neg (by tauto)]
        exact ih last

/-! ## Runs -/

def requesting : System (Mm R × List ResizeQueueItem) Event := session.observed [] recordRequest

/-- No step of a resize fails. -/
def ResizesWork (state : Mm R × List ResizeQueueItem) (event : Event) : Prop :=
  ∀ resize, (runEvent state.1 event).resizeData = some resize → resize.state ≠ .error

/-- The sizes once the resize under way is through. -/
def comingSizes (mm : Mm R) : DisplaySizeDescription :=
  match mm.resizeData with
  | some resize => resize.description
  | none => displaySizes mm

/-- The requests that have left the queue add up to the coming sizes. -/
structure Settling (initial : DisplaySizeDescription) (mm : Mm R)
    (standing : List ResizeQueueItem) : Prop where
  applied : ∃ done, standing = done ++ mm.resizeQueue ∧
    applyRequests initial done = comingSizes mm
  taken : ∀ resize, mm.resizeData = some resize → sizesTaken resize.state = true →
    displaySizes mm = resize.description
  works : ∀ resize, mm.resizeData = some resize → resize.state ≠ .error

section Settling

variable {initial : DisplaySizeDescription} {before after : Mm R} {event : Event}
  {standing : List ResizeQueueItem}

omit [Pixman R] in
theorem settling_kept (settling : Settling initial before standing)
    (data : after.resizeData = before.resizeData) (sizes : displaySizes after = displaySizes before)
    {later : List ResizeQueueItem}
    (queue : ∀ done, standing = done ++ before.resizeQueue → later = done ++ after.resizeQueue) :
    Settling initial after later := by
  constructor
  · obtain ⟨done, whole, applied⟩ := settling.applied
    refine ⟨done, queue done whole, ?_⟩
    rw [applied, comingSizes, comingSizes, data, sizes]
  · rw [data, sizes]
    exact settling.taken
  · rw [data]
    exact settling.works

omit [Pixman R] in
/-- A request that comes to the head of the queue counts from then on. -/
theorem settling_head (settling : Settling initial before standing)
    (none_active : before.resizeData = none) {head : ResizeQueueItem} {rest : List ResizeQueueItem}
    (queued : before.resizeQueue = head :: rest) (queue : after.resizeQueue = rest)
    (coming : comingSizes after = applyRequest (displaySizes before) head) :
    ∃ done, standing = done ++ after.resizeQueue ∧
      applyRequests initial done = comingSizes after := by
  obtain ⟨done, whole, applied⟩ := settling.applied
  refine ⟨done ++ [head], by rw [whole, queued, queue]; simp, ?_⟩
  rw [comingSizes, none_active] at applied
  rw [coming, apply_requests_append, applied]

omit [Pixman R] in
theorem not_requested (quiet : requestOf event = none) :
    recordRequest before event standing = standing := by
  rw [recordRequest, quiet]

omit [Pixman R] in
theorem settling_step (settling : Settling initial before standing)
    (works : ∀ resize, after.resizeData = some resize → resize.state ≠ .error)
    (step : QueueStep before event after) :
    Settling initial after (recordRequest before event standing) := by
  cases step with
  | kept _ _ quiet queue data sizes =>
      rw [not_requested quiet]
      apply settling_kept settling data sizes
      intro done whole
      rw [queue, whole]
  | requested src description _ other queue data sizes =>
      apply settling_kept settling data sizes
      intro done whole
      simp only [recordRequest, requestOf]
      rw [if_neg other, whole, queue, List.append_assoc]
  | superseded earlier prev description _ last fromClient queue data sizes =>
      apply settling_kept settling data sizes
      intro done whole
      have supersedes : Supersedes before .fromClient := by simp [Supersedes, last, fromClient]
      simp only [recordRequest, requestOf]
      rw [if_pos supersedes, whole, last, queue, ← List.append_assoc, List.dropLast_concat,
        List.append_assoc]
  | started answers head rest _ none_active queued sized other queue data sizes =>
      have coming : comingSizes after = applyRequest (displaySizes before) head := by
        rw [comingSizes, data, applyRequest, if_pos ⟨sized, other⟩]
      refine ⟨settling_head settling none_active queued queue coming, ?_, works⟩
      intro resize active taken
      obtain rfl := Option.some.inj (data.symm.trans active)
      simp [sizesTaken] at taken
  | dropped answers head rest _ none_active queued reason queue data sizes =>
      have coming : comingSizes after = applyRequest (displaySizes before) head := by
        rw [comingSizes, data, applyRequest, if_neg (by tauto), sizes]
      refine ⟨settling_head settling none_active queued queue coming, ?_, works⟩
      intro resize active
      rw [data] at active
      exact absurd active (by simp)
  | advanced _ resize state _ quiet active queue data sizes =>
      rw [not_requested quiet]
      constructor
      · obtain ⟨done, whole, applied⟩ := settling.applied
        refine ⟨done, by rw [queue, whole], ?_⟩
        rw [applied, comingSizes, comingSizes, active, data]
      · intro later same taken
        obtain rfl := Option.some.inj (data.symm.trans same)
        rcases sizes with ⟨kept, before_taken⟩ | followed
        · rw [kept]
          exact settling.taken resize active (before_taken taken)
        · exact followed
      · exact works
  | cleared answers resize _ active ended queue data sizes =>
      have complete : resize.state = .complete := by
        rcases ended with complete | failed
        · exact complete
        · exact absurd failed (settling.works resize active)
      constructor
      · obtain ⟨done, whole, applied⟩ := settling.applied
        refine ⟨done, by rw [queue]; exact whole, ?_⟩
        rw [applied, comingSizes, comingSizes, active, data, sizes]
        exact (settling.taken resize active (by rw [complete]; rfl)).symm
      · intro later same
        rw [data] at same
        exact absurd same (by simp)
      · exact works

end Settling

theorem settling_run {start final : Mm R} {standing : List ResizeQueueItem} {events : List Event}
    (started : Started start)
    (ran : (requesting.restrict ResizesWork).Run (start, []) events (final, standing)) :
    Settling (displaySizes start) final standing := by
  have holds : Settling (displaySizes start) (final, standing).1 (final, standing).2 := by
    apply System.run_preserves (fun state : Mm R × List ResizeQueueItem =>
      Settling (displaySizes start) state.1 state.2) _ ran
    · constructor
      · refine ⟨[], by rw [started.resizeQueue]; rfl, ?_⟩
        rw [comingSizes, started.resizeData]
        rfl
      · intro resize active
        rw [started.resizeData] at active
        exact absurd active (by simp)
      · intro resize active
        rw [started.resizeData] at active
        exact absurd active (by simp)
    · rintro ⟨before, standing⟩ event ⟨after, later⟩ settling ⟨works, ⟨-, moved⟩, recorded⟩
      simp only at moved recorded
      subst moved recorded
      exact settling_step settling works (queue_step before event)
  exact holds

/-! ## The last request -/

/-- Where the client always names a size, superseding takes nothing away from the last
request with one. -/
theorem standing_last {start final : Mm R × List ResizeQueueItem} {events : List Event}
    (ran : (requesting.restrict ResizesWork).Run start events final) (none_before : start.2 = [])
    (sized : ∀ item ∈ events.filterMap requestOf, item.src = .fromClient →
      HasSize item.description) :
    lastSized final.2 = lastSized (events.filterMap requestOf) := by
  induction ran with
  | stay => rw [none_before, List.filterMap_nil]
  | @next before after events event _ stepped ih =>
      obtain ⟨-, -, recorded⟩ := stepped
      rw [List.filterMap_append] at sized ⊢
      have earlier := ih fun item member => sized item (List.mem_append_left _ member)
      rw [recorded, recordRequest]
      cases requested : requestOf event with
      | none =>
          rw [List.filterMap_cons_none requested, List.filterMap_nil, List.append_nil]
          exact earlier
      | some item =>
          rw [List.filterMap_cons_some requested, List.filterMap_nil] at sized ⊢
          simp only []
          split
          · rename_i supersedes
            have has_size := sized item (by simp) supersedes.1
            rw [last_sized_append, last_sized_append, if_pos has_size, if_pos has_size]
          · rw [last_sized_append, last_sized_append, earlier]

/-- With nothing left to do the sizes are what the requests add up to that were not
superseded; their dimensions are those of the last request with a size. -/
structure Settled (initial : DisplaySizeDescription) (requests standing : List ResizeQueueItem)
    (mm : Mm R) : Prop where
  applied : displaySizes mm = applyRequests initial standing
  last : ∀ item, lastSized standing = some item →
    SameDimensions (displaySizes mm) item.description
  sized : (∀ item ∈ requests, item.src = .fromClient → HasSize item.description) →
    lastSized standing = lastSized requests

/-- Requests leave the queue without being processed in the ways of `QueueStep` only, and an
empty queue has settled. -/
theorem resize_queue_settles {start mm : Mm R} {standing : List ResizeQueueItem}
    {events : List Event} (started : Started start)
    (ran : (requesting.restrict ResizesWork).Run (start, []) events (mm, standing)) :
    (∀ event, QueueStep mm event (runEvent mm event)) ∧
      (mm.resizeQueue = [] → mm.resizeData = none →
        Settled (displaySizes start) (events.filterMap requestOf) standing mm) := by
  refine ⟨queue_step mm, fun empty none_active => ?_⟩
  obtain ⟨done, whole, applied⟩ := (settling_run started ran).applied
  rw [empty, List.append_nil] at whole
  subst whole
  have sizes : displaySizes mm = applyRequests (displaySizes start) standing := by
    rw [applied, comingSizes, none_active]
  refine ⟨sizes, ?_, standing_last ran rfl⟩
  intro item last
  rw [sizes]
  exact apply_requests_last (displaySizes start) standing last

/-! ## A resize of the same size -/

def twoMonitors : DisplaySizeDescription where
  minfo := [{ left := 0, top := 0, right := 639, bottom := 479 },
    { left := 640, top := 0, right := 1279, bottom := 479 }]
  minfoWm := [{ left := 0, top := 0, right := 639, bottom := 479 },
    { left := 640, top := 0, right := 1279, bottom := 479 }]
  sessionWidth := 1280
  sessionHeight := 480

/-- One monitor as wide as both. -/
def oneWideMonitor : DisplaySizeDescription where
  minfo := [{ left := 0, top := 0, right := 1279, bottom := 479 }]
  minfoWm := [{ left := 0, top := 0, right := 1279, bottom := 479 }]
  sessionWidth := 1280
  sessionHeight := 480

def twoMonitorSession : Mm BoxList :=
  { startedSession 2 false with
    wm.clientInfo.displaySizes := twoMonitors
    wm.screen := { width := 1280, height := 480, lineSize := 5120, data := fun _ => 0 } }

/-- A client asks for one monitor in place of two; the request is dropped. -/
def rearranged : List Event :=
  [.resizeRequest .fromClient oneWideMonitor, .resizeReady resizeWorks]

theorem rearranged_dropped :
    let final := runEvents twoMonitorSession rearranged
    session.Run twoMonitorSession rearranged final ∧ final.resizeQueue = [] ∧
      final.resizeData = none ∧
      lastSized (rearranged.filterMap requestOf) = some ⟨.fromClient, oneWideMonitor⟩ ∧
      displaySizes final ≠ oneWideMonitor := by
  refine ⟨run_of_events ⟨fun _ => by decide, trivial, trivial⟩, ?_⟩
  decide +kernel

/-- Two requests of the client, of which the first is superseded, and all of the resize. -/
def grownDesktop : List Event :=
  [.capsAdvertise (some (1, 0)) (some 2), .resizeRequest .fromClient (pixelSizes 3),
    .resizeRequest .fromClient (pixelSizes 2)] ++ List.replicate 7 (.resizeReady resizeWorks)

theorem resizes_work_computed {mm : Mm R} {event : Event}
    (works : (runEvent mm event).resizeData.all (fun resize => resize.state ≠ .error) = true)
    (standing : List ResizeQueueItem) : ResizesWork (mm, standing) event := by
  intro resize active
  simpa using (Option.all_eq_true _ _).mp works resize active

theorem resize_queue_settles_grown :
    ∃ standing, Settled (pixelSizes 1) (grownDesktop.filterMap requestOf) standing
      (runEvents (startedSession 1 false) grownDesktop) := by
  have permitted : AllMeet Permitted (startedSession 1 false) grownDesktop :=
    ⟨trivial, fun _ => by decide, fun _ => by decide, trivial, trivial, trivial, trivial, trivial,
      trivial, trivial, trivial⟩
  have works : AllMeet (fun mm event => ∀ standing, ResizesWork (mm, standing) event)
      (startedSession 1 false) grownDesktop := by
    refine ⟨?_, ?_, ?_, ?_, ?_, ?_, ?_, ?_, ?_, ?_, trivial⟩
    all_goals
      apply resizes_work_computed
      decide +kernel
  obtain ⟨standing, ran⟩ := @System.observed_run _ _ _ _ [] recordRequest ResizesWork _ _ _
    (restricted_run_of_events permitted works) []
  have settles := (resize_queue_settles (started_session 1 false) ran).2
  exact ⟨standing, settles (by decide +kernel) (by decide +kernel)⟩

end XrdpConsole.ResizeQueue
