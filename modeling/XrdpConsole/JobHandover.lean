import XrdpConsole.PlanarPipeline

/-!
# Who owns a job

The main thread releases a job with its last completion, which the encoder thread
has queued before it is out of its loops. Nothing but the order in which the two
go on keeps the encoder thread from reading the job afterwards.
-/

namespace XrdpConsole.JobHandover

open XrdpConsole.Library
open XrdpConsole.Region
open XrdpConsole.MmState
open XrdpConsole.PlanarSend
open XrdpConsole.PlanarWorker
open XrdpConsole.DrawSteps
open XrdpConsole.WorkerTrace
open XrdpConsole.PlanarPipeline

set_option autoImplicit false

variable {R : Type}

/-! ## The two threads -/

/-- Where the two threads are. The encoder thread is inside a call of
`process_enc_vnc_planar` from taking the job at `inside` up to the final check of its
`profile`, after which the call touches nothing that is shared. -/
structure Handover (R : Type) where
  mm : Mm R
  inside : Option Nat

/-- Jobs of any kind are queued, each at an address of its own. -/
inductive HandoverEvent where
  | queue (job : EncVncPlanar)
  | workerTakes (allocs : List Bool)
  | workerStep
  | encDone

def queueEvent (mm : Mm R) (job : EncVncPlanar) : Mm R :=
  match mm.encoder with
  | none => mm
  | some encoder => queueJob mm encoder { job with address := mm.nextAddress }

/-- The thread enters a call for the next job, unless it is still inside one. -/
def enterCall (self : Handover R) (encoder : Encoder) (allocs : List Bool) : Handover R :=
  match self.inside, encoder.fifoToProc with
  | none, job :: _ =>
      { mm := { self.mm with encoder := some (procEncMsg encoder allocs) }
        inside := some job.address }
  | _, _ => self

/-- The next action of the call, with the last of which the thread is out of it. -/
def stepCall (self : Handover R) (encoder : Encoder) : Handover R where
  mm := { self.mm with encoder := some (PlanarWorker.workerStep encoder) }
  inside := if (PlanarWorker.workerStep encoder).worker.isEmpty then none else self.inside

def runHandover (self : Handover R) : HandoverEvent → Handover R
  | .queue job => { self with mm := queueEvent self.mm job }
  | .workerTakes allocs =>
      match self.mm.encoder with
      | none => self
      | some encoder => enterCall self encoder allocs
  | .workerStep =>
      match self.mm.encoder with
      | none => self
      | some encoder => stepCall self encoder
  | .encDone => { self with mm := xrdpMmProcessEncDone self.mm }

def Untouched (self : Handover R) : Prop :=
  self.inside = none ∧ self.mm.freed = [] ∧ ∀ encoder, self.mm.encoder = some encoder →
    encoder.fifoToProc = [] ∧ encoder.fifoProcessed = [] ∧ encoder.worker = []

def handover : System (Handover R) HandoverEvent where
  initial := Untouched
  step before event after := runHandover before event = after

/-- The next action of the encoder thread reads no job that has been released. -/
def ReadsOwned (self : Handover R) : Prop :=
  ∀ encoder address block rest, self.mm.encoder = some encoder →
    encoder.worker = .read address block :: rest → address ∉ self.mm.freed

/-- The last completion of a job is handled only once the thread has left the call of
`process_enc_vnc_planar` for that job. -/
def AfterReturn (self : Handover R) : HandoverEvent → Prop
  | .encDone => ∀ encoder done rest, self.mm.encoder = some encoder →
      encoder.fifoProcessed = done :: rest → done.last = true →
      self.inside ≠ some done.enc.address
  | _ => True

/-! ## Addresses -/

/-- The addresses that are in use outside the queue of jobs, or have been. -/
def usedAddresses (encoder : Encoder) (freed : List Nat) : List Nat :=
  encoder.worker.map actionAddress ++ encoder.fifoProcessed.map (·.enc.address) ++ freed

/-- Addresses are given out in ascending order, so a queued job is at a later one than
all that went before it. -/
structure Ascending (encoder : Encoder) (nextAddress : Nat) (freed : List Nat) : Prop where
  queue : encoder.fifoToProc.Pairwise fun job later => job.address < later.address
  queued : ∀ job ∈ encoder.fifoToProc, job.address < nextAddress
  used : ∀ address ∈ usedAddresses encoder freed, address < nextAddress
  before_queue : ∀ address ∈ usedAddresses encoder freed, ∀ job ∈ encoder.fifoToProc,
    address < job.address

/-- What is left of the call the thread is inside: it is about the job of the call alone,
and ends with a read of it. -/
inductive InCall : Option Nat → List WorkerAction → Prop where
  | outside : InCall none []
  | inside (address : Nat) (actions : List WorkerAction) (block : JobBlock) :
      (∀ action ∈ actions, actionAddress action = address) →
      InCall (some address) (actions ++ [.read address block])

structure Placed (threads : Handover R) : Prop where
  ascending : ∀ encoder, threads.mm.encoder = some encoder →
    Ascending encoder threads.mm.nextAddress threads.mm.freed
  call : ∀ encoder, threads.mm.encoder = some encoder → InCall threads.inside encoder.worker

/-- The job of the call the thread is inside has not been released. -/
def Owned (self : Handover R) : Prop := ∀ address, self.inside = some address →
  address ∉ self.mm.freed

theorem ascending_queue {encoder : Encoder} {nextAddress : Nat} {freed : List Nat}
    (kept : Ascending encoder nextAddress freed) {job : EncVncPlanar}
    (fresh : job.address = nextAddress) :
    Ascending { encoder with fifoToProc := encoder.fifoToProc ++ [job] } (nextAddress + 1) freed where
  queue := by
    rw [List.pairwise_append]
    refine ⟨kept.queue, List.pairwise_singleton _ _, ?_⟩
    intro earlier member later single
    rw [List.mem_singleton.mp single, fresh]
    exact kept.queued earlier member
  queued other member := by
    rcases List.mem_append.mp member with earlier | single
    · have bound := kept.queued other earlier
      omega
    · rw [List.mem_singleton.mp single, fresh]
      exact Nat.lt_succ_self nextAddress
  used address member := by
    have bound := kept.used address member
    omega
  before_queue address member other queued := by
    rcases List.mem_append.mp queued with earlier | single
    · exact kept.before_queue address member other earlier
    · rw [List.mem_singleton.mp single, fresh]
      exact kept.used address member

theorem ascending_take {encoder : Encoder} {nextAddress : Nat} {freed : List Nat}
    (kept : Ascending encoder nextAddress freed) {job : EncVncPlanar} {rest : List EncVncPlanar}
    (queued : encoder.fifoToProc = job :: rest) (allocs : List Bool) :
    Ascending { encoder with fifoToProc := rest, worker := processEncVncPlanar job allocs }
      nextAddress freed := by
  have ordered := kept.queue
  rw [queued, List.pairwise_cons] at ordered
  have own : ∀ address ∈ usedAddresses
      { encoder with fifoToProc := rest, worker := processEncVncPlanar job allocs } freed,
      address = job.address ∨ address ∈ usedAddresses encoder freed := by
    intro address member
    simp only [usedAddresses, List.mem_append, List.mem_map] at member ⊢
    rcases member with (⟨action, acted, rfl⟩ | processed) | released
    · exact .inl (worker_own_actions job allocs action acted)
    · exact .inr (.inl (.inr processed))
    · exact .inr (.inr released)
  constructor
  · exact ordered.2
  · intro other member
    exact kept.queued other (by simp [queued, member])
  · intro address member
    rcases own address member with rfl | earlier
    · exact kept.queued job (by simp [queued])
    · exact kept.used address earlier
  · intro address member other later
    rcases own address member with rfl | earlier
    · exact ordered.1 other later
    · exact kept.before_queue address earlier other (by simp [queued, later])

/-- Fewer addresses in use, or the same ones elsewhere. -/
theorem ascending_used {before after : Encoder} {nextAddress : Nat} {freed released : List Nat}
    (kept : Ascending before nextAddress freed) (queue : after.fifoToProc = before.fifoToProc)
    (used : ∀ address ∈ usedAddresses after released, address ∈ usedAddresses before freed) :
    Ascending after nextAddress released where
  queue := queue ▸ kept.queue
  queued := queue ▸ kept.queued
  used address member := kept.used address (used address member)
  before_queue address member := queue ▸ kept.before_queue address (used address member)

/-! ## Steps -/

/-- `process_enc_vnc_planar` ends with the check of `profile`. -/
theorem worker_in_call (job : EncVncPlanar) (allocs : List Bool) :
    InCall (some job.address) (processEncVncPlanar job allocs) := by
  have own := worker_own_actions job allocs
  obtain ⟨actions, same⟩ : ∃ actions,
      processEncVncPlanar job allocs = actions ++ [.read job.address .enc] := by
    simp only [processEncVncPlanar, profileJob]
    generalize finishJob job _ = run
    cases job.profile with
    | true => exact ⟨run.actions ++ [.read job.address .enc], by simp [WorkerRun.reads]⟩
    | false => exact ⟨run.actions, rfl⟩
  rw [same] at own ⊢
  apply InCall.inside
  intro action member
  exact own action (List.mem_append_left _ member)

theorem step_in_call {inside : Option Nat} {encoder : Encoder}
    (call : InCall inside encoder.worker) :
    InCall (if (PlanarWorker.workerStep encoder).worker.isEmpty then none else inside)
      (PlanarWorker.workerStep encoder).worker := by
  have next : (PlanarWorker.workerStep encoder).worker = encoder.worker.tail := by
    unfold PlanarWorker.workerStep
    split <;> simp [*]
  rw [next]
  generalize encoder.worker = working at call ⊢
  cases call with
  | outside => exact .outside
  | inside address actions block own =>
      cases actions with
      | nil => exact .outside
      | cons action actions =>
          have left : (actions ++ [WorkerAction.read address block]).isEmpty = false := by simp
          rw [List.cons_append, List.tail_cons, left, if_neg (by simp)]
          exact .inside address actions block fun other member =>
            own other (List.mem_cons_of_mem action member)

theorem queue_placed {before : Handover R} (placed : Placed before) (job : EncVncPlanar) :
    Placed (runHandover before (.queue job)) := by
  simp only [runHandover, queueEvent]
  cases present : before.mm.encoder with
  | none => exact placed
  | some encoder =>
      constructor
      · intro after same
        obtain rfl := Option.some.inj same
        exact ascending_queue (placed.ascending encoder present) rfl
      · intro after same
        obtain rfl := Option.some.inj same
        exact placed.call encoder present

/-- The thread stays where it is, or enters a call for a job that is queued. -/
inductive Entered (before : Handover R) (encoder : Encoder) : Handover R → Prop where
  | waits : Entered before encoder before
  | enters (job : EncVncPlanar) (rest : List EncVncPlanar) (allocs : List Bool) :
      encoder.fifoToProc = job :: rest →
      Entered before encoder
        { mm := { before.mm with
            encoder := some { encoder with
              fifoToProc := rest, worker := processEncVncPlanar job allocs } }
          inside := some job.address }

theorem enter_call_entered {before : Handover R} {encoder : Encoder}
    (call : InCall before.inside encoder.worker) (allocs : List Bool) :
    Entered before encoder (enterCall before encoder allocs) := by
  simp only [enterCall]
  cases where_is : before.inside with
  | some address => exact .waits
  | none =>
      rw [where_is] at call
      generalize working : encoder.worker = left at call
      cases call with
      | outside =>
          cases queued : encoder.fifoToProc with
          | nil => exact .waits
          | cons job rest =>
              simp only [procEncMsg, working, queued]
              exact .enters job rest allocs queued

theorem take_placed {before : Handover R} (placed : Placed before) (allocs : List Bool) :
    Placed (runHandover before (.workerTakes allocs)) := by
  simp only [runHandover]
  cases present : before.mm.encoder with
  | none => exact placed
  | some encoder =>
      have entered := enter_call_entered (placed.call encoder present) allocs
      simp only []
      generalize enterCall before encoder allocs = after at entered ⊢
      cases entered with
      | waits => exact placed
      | enters job rest allocs queued =>
          constructor
          · intro after same
            obtain rfl := Option.some.inj same
            exact ascending_take (placed.ascending encoder present) queued allocs
          · intro after same
            obtain rfl := Option.some.inj same
            exact worker_in_call job allocs

theorem step_placed {before : Handover R} (placed : Placed before) :
    Placed (runHandover before .workerStep) := by
  simp only [runHandover]
  cases present : before.mm.encoder with
  | none => exact placed
  | some encoder =>
      constructor
      · intro after same
        obtain rfl := Option.some.inj same
        apply ascending_used (placed.ascending encoder present)
        · unfold PlanarWorker.workerStep
          split <;> rfl
        · intro address member
          simp only [stepCall] at member
          unfold PlanarWorker.workerStep at member
          split at member
          · exact member
          · rename_i working
            simp only [usedAddresses, working, List.map_cons, List.mem_append, List.mem_cons]
              at member ⊢
            tauto
          · rename_i working
            simp only [usedAddresses, working, List.map_cons, List.map_append, List.map_nil,
              List.mem_append, List.mem_cons, actionAddress, List.not_mem_nil, or_false] at member ⊢
            tauto
      · intro after same
        obtain rfl := Option.some.inj same
        exact step_in_call (placed.call encoder present)

/-- What handling a completion does to what the encoder thread works on. -/
inductive Handled (before : Mm R) : Mm R → Prop where
  | idle : (∀ encoder, before.encoder = some encoder → encoder.fifoProcessed = []) →
      Handled before before
  | done (encoder after : Encoder) (encDone : EncDone) (rest : List EncDone) (mm : Mm R) :
      before.encoder = some encoder → encoder.fifoProcessed = encDone :: rest →
      mm.encoder = some after → SameQueues { encoder with fifoProcessed := rest } after →
      mm.nextAddress = before.nextAddress →
      mm.freed = (if encDone.last then before.freed ++ [encDone.enc.address] else before.freed) →
      Handled before mm

theorem enc_done_handled (before : Mm R) : Handled before (xrdpMmProcessEncDone before) := by
  have step := enc_done_step before
  generalize xrdpMmProcessEncDone before = after at step ⊢
  cases step with
  | idle nothing => exact .idle nothing
  | handled encoder encDone rest sent frameId present processed sends =>
      obtain ⟨messages, results, rfl, -⟩ := sends
      have kept := with_frame_id_kept (some { encoder with fifoProcessed := rest }) frameId
      generalize found : withFrameId (some { encoder with fifoProcessed := rest }) frameId = final
        at kept
      cases kept with
      | present same =>
          exact .done encoder _ encDone rest _ present processed found same rfl rfl

theorem done_placed {before : Handover R} (placed : Placed before) :
    Placed (runHandover before .encDone) := by
  have handled := enc_done_handled before.mm
  simp only [runHandover]
  generalize xrdpMmProcessEncDone before.mm = mm at handled ⊢
  cases handled with
  | idle _ => exact placed
  | done encoder after encDone rest _ present processed afterPresent kept next freed =>
      constructor
      · intro other same
        obtain rfl := Option.some.inj (afterPresent.symm.trans same)
        rw [next]
        apply ascending_used (placed.ascending encoder present) kept.queue
        intro address member
        simp only [usedAddresses, kept.processed, kept.worker, freed, processed, List.mem_append,
          List.map_cons, List.mem_cons] at member ⊢
        split at member
        · simp only [List.mem_append, List.mem_singleton] at member
          tauto
        · tauto
      · intro other same
        obtain rfl := Option.some.inj (afterPresent.symm.trans same)
        rw [kept.worker]
        exact placed.call encoder present

theorem event_placed {before : Handover R} (placed : Placed before) (event : HandoverEvent) :
    Placed (runHandover before event) := by
  cases event with
  | queue job => exact queue_placed placed job
  | workerTakes allocs => exact take_placed placed allocs
  | workerStep => exact step_placed placed
  | encDone => exact done_placed placed

theorem untouched_placed {start : Handover R} (untouched : Untouched start) : Placed start := by
  obtain ⟨outside, freed, empty⟩ := untouched
  constructor
  · intro encoder present
    obtain ⟨queue, processed, worker⟩ := empty encoder present
    constructor <;> simp [queue, processed, worker, usedAddresses, freed]
  · intro encoder present
    obtain ⟨-, -, worker⟩ := empty encoder present
    rw [outside, worker]
    exact .outside

/-! ## Who owns the job of the call -/

theorem event_owned {before : Handover R} {event : HandoverEvent} (placed : Placed before)
    (owned : Owned before) (met : AfterReturn before event) :
    Owned (runHandover before event) := by
  cases event with
  | queue job =>
      intro address inside
      simp only [runHandover, queueEvent]
      split
      · exact owned address inside
      · exact owned address inside
  | workerTakes allocs =>
      simp only [runHandover]
      cases present : before.mm.encoder with
      | none => exact owned
      | some encoder =>
          have entered := enter_call_entered (placed.call encoder present) allocs
          simp only []
          generalize enterCall before encoder allocs = after at entered ⊢
          cases entered with
          | waits => exact owned
          | enters job rest allocs queued =>
              intro address inside released
              obtain rfl := Option.some.inj inside
              have less := (placed.ascending encoder present).before_queue job.address
                (by simp [usedAddresses, show job.address ∈ before.mm.freed from released])
                job (by simp [queued])
              exact Nat.lt_irrefl _ less
  | workerStep =>
      simp only [runHandover]
      cases before.mm.encoder with
      | none => exact owned
      | some encoder =>
          intro address inside
          simp only [stepCall] at inside ⊢
          split at inside
          · exact absurd inside (by simp)
          · exact owned address inside
  | encDone =>
      have handled := enc_done_handled before.mm
      simp only [runHandover]
      generalize xrdpMmProcessEncDone before.mm = mm at handled ⊢
      cases handled with
      | idle _ => exact owned
      | done encoder after encDone rest _ present processed _ _ _ freed =>
          intro address inside released
          rw [show mm.freed = _ from freed] at released
          split at released
          · rename_i last
            rcases List.mem_append.mp released with earlier | now
            · exact owned address inside earlier
            · have left := met encoder encDone rest present processed last
              rw [List.mem_singleton.mp now] at inside
              exact left inside
          · exact owned address inside released

theorem reachable_placed {self : Handover R} (reachable : handover.Reachable self) :
    Placed self := by
  apply System.reachable_invariant Placed _ _ reachable
  · intro start initial
    exact untouched_placed initial
  · intro before event after placed stepped
    obtain rfl : runHandover before event = after := stepped
    exact event_placed placed event

theorem reachable_owned {self : Handover R}
    (reachable : (handover.restrict AfterReturn).Reachable self) : Placed self ∧ Owned self := by
  apply System.reachable_invariant (fun self => Placed self ∧ Owned self) _ _ reachable
  · intro start initial
    have untouched : Untouched start := initial
    refine ⟨untouched_placed untouched, ?_⟩
    intro address _ released
    rw [untouched.2.1] at released
    exact List.not_mem_nil released
  · intro before event after kept stepped
    obtain ⟨met, rfl⟩ := stepped
    exact ⟨event_placed kept.1 event, event_owned kept.1 kept.2 met⟩

theorem in_call_read {inside : Option Nat} {address : Nat} {block : JobBlock}
    {rest : List WorkerAction} (call : InCall inside (.read address block :: rest)) :
    inside = some address := by
  generalize working : WorkerAction.read address block :: rest = left at call
  cases call with
  | outside => exact absurd working (by simp)
  | inside own actions last all =>
      cases actions with
      | nil =>
          obtain ⟨same, -⟩ := List.cons.inj working
          rw [(WorkerAction.read.inj same).1]
      | cons action actions =>
          obtain ⟨same, -⟩ := List.cons.inj working
          have found := all action (List.mem_cons_self ..)
          rw [← same] at found
          rw [← found]
          rfl

/-- In every run whose last completions are handled after the thread has left the call for
their job, it reads no job that has been released. -/
theorem reads_owned_after_return {self : Handover R}
    (reachable : (handover.restrict AfterReturn).Reachable self) : ReadsOwned self := by
  obtain ⟨placed, owned⟩ := reachable_owned reachable
  intro encoder address block rest present working
  have call := placed.call encoder present
  rw [working] at call
  exact owned address (in_call_read call)

theorem reads_owned_next {self : Handover R} (owned : ReadsOwned self) {address : Nat}
    {block : JobBlock}
    (next : self.mm.encoder.map (·.worker.head?) = some (some (.read address block))) :
    address ∉ self.mm.freed := by
  obtain ⟨encoder, present, same⟩ := Option.map_eq_some_iff.mp next
  obtain ⟨rest, working⟩ := List.head?_eq_some_iff.mp same
  exact owned encoder address block rest present working

def pixelJob : EncVncPlanar where
  address := 0
  rects := [{ left := 0, top := 0, width := 1, height := 1, dataOffset := 0 }]
  pixels := [1, 2, 3, 0]
  pixelsBytes := 4
  surfaceId := 0
  originX := 0
  originY := 0
  frameId := 1
  profile := false

/-- The job is queued and taken, and the thread goes on for a number of actions. -/
def partOfJob (actions : Nat) : List HandoverEvent :=
  .queue pixelJob :: .workerTakes [] :: List.replicate actions .workerStep

def pixelHandover : Handover BoxList where
  mm := pixelSession 1 true
  inside := none

theorem pixel_handover_untouched : Untouched pixelHandover := by
  refine ⟨rfl, rfl, ?_⟩
  intro encoder present
  obtain rfl : idleEncoder = encoder := Option.some.inj present
  exact ⟨rfl, rfl, rfl⟩

theorem reads_owned_whole_job :
    ReadsOwned (runHandover ((partOfJob 24).foldl runHandover pixelHandover) .encDone) := by
  apply reads_owned_after_return
  have worked : System.Run (handover.restrict AfterReturn) pixelHandover (partOfJob 24)
      ((partOfJob 24).foldl runHandover pixelHandover) := by
    apply System.run_computed
    intro label member before
    refine ⟨?_, rfl⟩
    simp only [partOfJob, List.mem_cons, List.mem_replicate] at member
    rcases member with rfl | rfl | ⟨-, rfl⟩ <;> trivial
  have left : ((partOfJob 24).foldl runHandover pixelHandover).inside = none := by
    decide +kernel
  generalize (partOfJob 24).foldl runHandover pixelHandover = before at worked left ⊢
  refine ⟨_, _, pixel_handover_untouched, .next worked ⟨?_, rfl⟩⟩
  intro encoder done rest _ _ _
  simp [left]

/-- The completion of the only tile is handled while the thread is still in its loops: the
condition of the innermost one reads the released job. -/
theorem released_while_in_loop :
    handover.Reachable
        (runHandover ((partOfJob 17).foldl runHandover pixelHandover) .encDone) ∧
      ¬ReadsOwned
        (runHandover ((partOfJob 17).foldl runHandover pixelHandover) .encDone) := by
  have worked : System.Run handover pixelHandover (partOfJob 17)
      ((partOfJob 17).foldl runHandover pixelHandover) :=
    System.run_computed (fun _ _ _ => rfl) _
  have next : (runHandover ((partOfJob 17).foldl runHandover pixelHandover)
      .encDone).mm.encoder.map (·.worker.head?) = some (some (.read 0 .rects)) := by
    decide +kernel
  have released : 0 ∈ (runHandover ((partOfJob 17).foldl runHandover pixelHandover)
      .encDone).mm.freed := by
    decide +kernel
  generalize (partOfJob 17).foldl runHandover pixelHandover = before at worked next released ⊢
  constructor
  · exact ⟨_, _, pixel_handover_untouched, .next worked rfl⟩
  · intro owned
    exact reads_owned_next owned next released

/-! ## The condition is needed -/

theorem worker_steps_reach {self : Handover R} {encoder : Encoder}
    {actions later : List WorkerAction} (present : self.mm.encoder = some encoder)
    (working : encoder.worker = actions ++ later) :
    ∃ after, ((List.replicate actions.length .workerStep).foldl runHandover self).mm.encoder =
        some after ∧ after.worker = later ∧
      ((List.replicate actions.length .workerStep).foldl runHandover self).mm.freed =
        self.mm.freed := by
  induction actions generalizing self encoder with
  | nil => exact ⟨encoder, present, working, rfl⟩
  | cons action actions ih =>
      rw [List.length_cons, List.replicate_succ, List.foldl_cons]
      have stepped : runHandover self .workerStep = stepCall self encoder := by
        simp only [runHandover, present]
      rw [stepped]
      have next : (stepCall self encoder).mm.encoder = some (PlanarWorker.workerStep encoder) := rfl
      apply ih next
      cases action with
      | read address block => simp [PlanarWorker.workerStep, working]
      | complete done => simp [PlanarWorker.workerStep, working]

/-- Where a last completion is handled while the thread is inside the call for its job, the
thread comes to a read of the released job: at the latest the check of `profile`. -/
theorem early_release_read {before : Handover R} (reachable : handover.Reachable before)
    (early : ¬AfterReturn before .encDone) :
    ∃ steps, ¬ReadsOwned ((List.replicate steps .workerStep).foldl runHandover
      (runHandover before .encDone)) := by
  simp only [AfterReturn, not_forall, not_not] at early
  obtain ⟨encoder, encDone, rest, present, processed, last, inside⟩ := early
  have call := (reachable_placed reachable).call encoder present
  rw [inside] at call
  generalize working : encoder.worker = left at call
  cases call with
  | inside address actions block _ =>
      have handled := enc_done_handled before.mm
      refine ⟨actions.length, ?_⟩
      intro owned
      simp only [runHandover] at owned
      generalize xrdpMmProcessEncDone before.mm = mm at handled owned
      cases handled with
      | idle nothing =>
          rw [nothing encoder present] at processed
          exact absurd processed (by simp)
      | done other after found later _ same popped afterPresent kept _ freed =>
          obtain rfl := Option.some.inj (present.symm.trans same)
          obtain ⟨rfl, rfl⟩ := List.cons.inj (processed.symm.trans popped)
          obtain ⟨reached, reachedPresent, left, released⟩ := @worker_steps_reach R
            { before with mm } after _ _ afterPresent (kept.worker.trans working)
          apply owned reached encDone.enc.address block [] reachedPresent left
          rw [released, freed, if_pos last]
          exact List.mem_append_right _ (List.mem_singleton_self _)

end XrdpConsole.JobHandover
