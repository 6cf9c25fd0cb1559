import XrdpConsole.Library.FinalItem
import XrdpConsole.PlanarTiles
import XrdpConsole.PlanarWorker

/-!
# What the encoder thread does for one job

Every action is about the job it took, and the completions are those of the tiles
in the order of the loops: all of them, or those before the first failed
allocation and then one without data.
-/

namespace XrdpConsole.WorkerTrace

open XrdpConsole.Library
open XrdpConsole.MmState
open XrdpConsole.PlanarSend
open XrdpConsole.PlanarTiles
open XrdpConsole.PlanarWorker

set_option autoImplicit false

/-! ## Addresses -/

def actionAddress : WorkerAction → Nat
  | .read address _ => address
  | .complete done => done.enc.address

def OwnActions (address : Nat) (run : WorkerRun) : Prop :=
  ∀ action ∈ run.actions, actionAddress action = address

theorem own_reads {address : Nat} {run : WorkerRun} (own : OwnActions address run)
    (blocks : List JobBlock) : OwnActions address (run.reads address blocks) := by
  intro action member
  rcases List.mem_append.mp member with earlier | read
  · exact own action earlier
  · obtain ⟨block, -, rfl⟩ := List.mem_map.mp read
    rfl

theorem own_complete {address : Nat} {run : WorkerRun} (own : OwnActions address run)
    {done : EncDone} (same : done.enc.address = address) :
    OwnActions address { run with actions := run.actions ++ [.complete done] } := by
  intro action member
  rcases List.mem_append.mp member with earlier | completed
  · exact own action earlier
  · rw [List.mem_singleton.mp completed]
    exact same

theorem own_fold {Item : Type} {address : Nat} {body : WorkerRun → Item → WorkerRun}
    (kept : ∀ run item, OwnActions address run → OwnActions address (body run item))
    (items : List Item) {run : WorkerRun} (own : OwnActions address run) :
    OwnActions address (items.foldl body run) := by
  induction items generalizing run with
  | nil => exact own
  | cons item items ih => exact ih (kept run item own)

section Addresses

variable (job : EncVncPlanar) {run : WorkerRun}

theorem own_tile (own : OwnActions job.address run) (rectIndex : Nat) (rect : EncVncPlanarRect)
    (tileWidth yoffset bheight xoffset : Int) :
    OwnActions job.address (processTile job rectIndex rect tileWidth yoffset bheight run xoffset) := by
  simp only [processTile]
  split
  · exact own
  · split
    · exact own_reads own _
    · split
      · exact own_reads own _
      · exact own_complete (own_reads (own_reads own _) _) rfl

theorem own_tile_row (own : OwnActions job.address run) (rectIndex : Nat) (rect : EncVncPlanarRect)
    (tileWidth tileHeight yoffset : Int) :
    OwnActions job.address (processTileRow job rectIndex rect tileWidth tileHeight run yoffset) := by
  simp only [processTileRow]
  split
  · exact own
  · have row := fun run xoffset own => @own_tile job run own rectIndex rect tileWidth yoffset
      (min (rect.height - yoffset) tileHeight) xoffset
    split
    · exact own_fold row _ (own_reads own _)
    · exact own_reads (own_fold row _ (own_reads own _)) _

theorem own_rect (own : OwnActions job.address run) (item : EncVncPlanarRect × Nat) :
    OwnActions job.address (processRect job run item) := by
  simp only [processRect]
  split
  · exact own
  · split
    · exact own_reads own _
    · split
      · exact own_reads (own_reads own _) _
      · have rows := fun run yoffset own => @own_tile_row job run own item.2 item.1
          (tileSize item.1.width.toNat item.1.height.toNat).1
          (tileSize item.1.width.toNat item.1.height.toNat).2 yoffset
        have read := own_reads (own_reads own [.enc, .enc, .rects]) [.rects, .enc, .rects]
        split
        · exact own_reads (own_reads (own_fold rows _ read) _) _
        · exact own_reads (own_fold rows _ read) _

theorem own_rects (own : OwnActions job.address run) :
    OwnActions job.address (processRects job run) := by
  have rects := own_fold (fun run item own => own_rect job own item) job.rects.zipIdx own
  simp only [processRects]
  split
  · exact rects
  · exact own_reads rects _

theorem own_buffers {address : Nat} (own : OwnActions address run) :
    OwnActions address (newTileBuffers run) := by
  simp only [newTileBuffers]
  split
  · exact own
  · split
    · exact own
    · exact own

theorem own_finish (own : OwnActions job.address run) :
    OwnActions job.address (finishJob job run) := by
  simp only [finishJob]
  split
  · split
    · exact own_complete (own_reads own _) rfl
    · exact own
  · exact own

/-- The thread reads no other job than the one it took, and completes no other. -/
theorem worker_own_actions (allocs : List Bool) :
    ∀ action ∈ processEncVncPlanar job allocs, actionAddress action = job.address := by
  have start : OwnActions job.address (WorkerRun.start allocs) := by
    simp [OwnActions, WorkerRun.start]
  have buffers := own_buffers (own_reads start [.enc])
  simp only [processEncVncPlanar]
  apply own_reads
  apply own_finish
  split
  · exact buffers
  · exact own_rects job buffers

end Addresses

/-! ## Completions -/

def completion : WorkerAction → Option EncDone
  | .read _ _ => none
  | .complete done => some done

def completions (actions : List WorkerAction) : List EncDone := actions.filterMap completion

@[simp] theorem completions_reads (run : WorkerRun) (address : Nat) (blocks : List JobBlock) :
    completions (run.reads address blocks).actions = completions run.actions := by
  simp [completions, WorkerRun.reads, List.filterMap_append, List.filterMap_map,
    List.filterMap_eq_nil_iff, completion]

@[simp] theorem completions_complete (actions : List WorkerAction) (done : EncDone) :
    completions (actions ++ [.complete done]) = completions actions ++ [done] := by
  simp [completions, completion]

/-- Tiles whose completions only lack the flag that says which is the first one. -/
def markDones : Bool → List (Bool → EncDone) → List EncDone
  | _, [] => []
  | firstTile, tile :: rest => tile firstTile :: markDones false rest

theorem mark_dones_append (firstTile : Bool) (plan later : List (Bool → EncDone)) :
    markDones firstTile (plan ++ later) =
      markDones firstTile plan ++ markDones (firstTile && plan.isEmpty) later := by
  induction plan generalizing firstTile with
  | nil => simp [markDones]
  | cons tile rest ih =>
      rw [List.cons_append, markDones, ih false]
      simp [markDones]

/-- The completion of the tile at `xoffset`. -/
def tilePlan (job : EncVncPlanar) (rectIndex : Nat) (rect : EncVncPlanarRect)
    (tileWidth yoffset bheight xoffset : Int) (firstTile : Bool) : EncDone :=
  tileDone job rectIndex rect yoffset bheight xoffset (min (rect.width - xoffset) tileWidth)
    firstTile (compressSnapshotTile job rect yoffset bheight xoffset
      (min (rect.width - xoffset) tileWidth)).2

def rowPlan (job : EncVncPlanar) (rectIndex : Nat) (rect : EncVncPlanarRect)
    (tileWidth tileHeight yoffset : Int) : List (Bool → EncDone) :=
  (forRange 0 rect.width tileWidth).map
    (tilePlan job rectIndex rect tileWidth yoffset (min (rect.height - yoffset) tileHeight))

def rectPlan (job : EncVncPlanar) (item : EncVncPlanarRect × Nat) : List (Bool → EncDone) :=
  if item.1.width < 1 ∨ item.1.height < 1 then
    []
  else
    let tile := tileSize item.1.width.toNat item.1.height.toNat
    (forRange 0 item.1.height tile.2).flatMap (rowPlan job item.2 item.1 tile.1 tile.2)

/-- The completions of all tiles of a job, in the order of the loops. -/
def jobPlan (job : EncVncPlanar) : List (Bool → EncDone) := job.rects.zipIdx.flatMap (rectPlan job)

/-! ## Allocations -/

/-- After a failed allocation of the two a tile makes, the next one succeeds. -/
def PairsRecover : List Bool → Prop
  | first :: second :: rest =>
      if (first && second) = true then PairsRecover rest else rest.headD true = true
  | _ => True

/-- A completion without data can be allocated where one is needed. -/
def AllocsRecover : List Bool → Prop
  | first :: second :: third :: rest =>
      if (first && second && third) = true then PairsRecover rest else rest.headD true = true
  | _ => True

theorem pairs_recover_next {allocs : List Bool} (recovers : PairsRecover allocs) :
    if (allocs.headD true && allocs.tail.headD true) = true then PairsRecover allocs.tail.tail
    else allocs.tail.tail.headD true = true := by
  match allocs with
  | [] => trivial
  | [first] => cases first <;> simp [PairsRecover]
  | first :: second :: rest => exact recovers

def Recovers (run : WorkerRun) : Prop :=
  if run.error then run.allocs.headD true = true else PairsRecover run.allocs

/-! ## Progress -/

/-- Between `before` and `after` the first `count` tiles of `plan` were completed:
all of them unless an allocation failed. -/
structure Progress (plan : List (Bool → EncDone)) (count : Nat) (before after : WorkerRun) :
    Prop where
  bound : count ≤ plan.length
  emitted : completions after.actions =
    completions before.actions ++ markDones (!before.emittedCompletion) (plan.take count)
  flag : after.emittedCompletion = (before.emittedCompletion || decide (0 < count))
  first : after.firstTile = !after.emittedCompletion
  whole : after.error = false → count = plan.length
  broken : after.error = true → count < plan.length
  available : before.allocs = [] → after.allocs = [] ∧ after.error = false
  recovers : Recovers before → Recovers after

structure Running (run : WorkerRun) : Prop where
  error : run.error = false
  first : run.firstTile = !run.emittedCompletion

theorem running_reads {run : WorkerRun} (running : Running run) (address : Nat)
    (blocks : List JobBlock) : Running (run.reads address blocks) := ⟨running.1, running.2⟩

theorem progress_none {run : WorkerRun} (running : Running run) : Progress [] 0 run run where
  bound := Nat.le_refl 0
  emitted := by simp [markDones]
  flag := by simp
  first := running.first
  whole _ := rfl
  broken failed := by simp [running.error] at failed
  available none_left := ⟨none_left, running.error⟩
  recovers := id

theorem progress_reads {plan : List (Bool → EncDone)} {count : Nat} {before after : WorkerRun}
    (progress : Progress plan count before after) (address : Nat) (blocks : List JobBlock) :
    Progress plan count before (after.reads address blocks) where
  bound := progress.bound
  emitted := by rw [completions_reads, progress.emitted]
  flag := progress.flag
  first := progress.first
  whole := progress.whole
  broken := progress.broken
  available := progress.available
  recovers := progress.recovers

theorem reads_progress {plan : List (Bool → EncDone)} {count : Nat} {before after : WorkerRun}
    {address : Nat} {blocks : List JobBlock}
    (progress : Progress plan count (before.reads address blocks) after) :
    Progress plan count before after where
  bound := progress.bound
  emitted := by rw [progress.emitted, completions_reads]; rfl
  flag := progress.flag
  first := progress.first
  whole := progress.whole
  broken := progress.broken
  available := progress.available
  recovers := progress.recovers

theorem progress_append {plan later : List (Bool → EncDone)} {count : Nat}
    {before middle after : WorkerRun} (first : Progress plan count before middle)
    (second : Running middle → ∃ more, Progress later more middle after)
    (stopped : middle.error = true → after = middle) :
    ∃ total, Progress (plan ++ later) total before after := by
  cases failed : middle.error with
  | true =>
      refine ⟨count, ?_⟩
      rw [stopped failed]
      have short := first.broken failed
      constructor
      · rw [List.length_append]
        omega
      · rw [List.take_append_of_le_length first.bound]
        exact first.emitted
      · exact first.flag
      · exact first.first
      · intro succeeded
        rw [failed] at succeeded
        exact absurd succeeded (by simp)
      · intro _
        rw [List.length_append]
        omega
      · exact first.available
      · exact first.recovers
  | false =>
      obtain ⟨more, second⟩ := second ⟨failed, first.first⟩
      have all := first.whole failed
      refine ⟨count + more, ?_⟩
      constructor
      · rw [List.length_append]
        have bound := second.bound
        omega
      · rw [second.emitted, first.emitted, first.flag, all, List.take_length,
          List.take_length_add_append, mark_dones_append, List.append_assoc]
        congr 3
        cases plan with
        | nil => simp
        | cons tile rest => simp
      · rw [second.flag, first.flag, Bool.or_assoc]
        congr 1
        rw [← Bool.decide_or]
        congr 1
        rw [eq_iff_iff]
        omega
      · exact second.first
      · intro succeeded
        rw [List.length_append, ← all, ← second.whole succeeded]
      · intro later_failed
        have short := second.broken later_failed
        rw [List.length_append]
        omega
      · intro none_left
        exact second.available (first.available none_left).1
      · intro recovers
        exact second.recovers (first.recovers recovers)

/-- A loop that goes on until an allocation fails completes the tiles of its rounds. -/
theorem progress_fold {Item : Type} {body : WorkerRun → Item → WorkerRun}
    {plan : Item → List (Bool → EncDone)}
    (stops : ∀ run item, run.error = true → body run item = run) (items : List Item)
    (step : ∀ item ∈ items, ∀ run, Running run →
      ∃ count, Progress (plan item) count run (body run item))
    {run : WorkerRun} (running : Running run) :
    ∃ count, Progress (items.flatMap plan) count run (items.foldl body run) := by
  have stays : ∀ (items : List Item) (run : WorkerRun), run.error = true →
      items.foldl body run = run := by
    intro items
    induction items with
    | nil => exact fun run _ => rfl
    | cons item items ih =>
        intro run failed
        rw [List.foldl_cons, stops run item failed, ih run failed]
  induction items generalizing run with
  | nil => exact ⟨0, progress_none running⟩
  | cons item items ih =>
      obtain ⟨count, first⟩ := step item (List.mem_cons_self ..) run running
      rw [List.flatMap_cons, List.foldl_cons]
      apply progress_append first
      · exact fun again => ih (fun other member => step other (List.mem_cons_of_mem item member)) again
      · exact stays items (body run item)

/-! ## The loops -/

theorem progress_failed {run : WorkerRun} (running : Running run) (tile : Bool → EncDone)
    (failed : (run.gNew.1 && run.gNew.2.gNew.1) = false) :
    Progress [tile] 0 run run.gNew.2.gNew.2.fail := by
  simp only [WorkerRun.gNew] at failed
  constructor
  · exact Nat.zero_le 1
  · simp [WorkerRun.fail, WorkerRun.gNew, markDones]
  · simp [WorkerRun.fail, WorkerRun.gNew]
  · exact running.first
  · simp [WorkerRun.fail]
  · simp
  · intro none_left
    simp [none_left] at failed
  · intro recovers
    simp only [Recovers, running.error, WorkerRun.fail] at recovers ⊢
    have next := pairs_recover_next recovers
    rw [failed, if_neg (by simp)] at next
    exact next

theorem progress_emitted {run : WorkerRun} (running : Running run) (tile : Bool → EncDone)
    (worked : (run.gNew.1 && run.gNew.2.gNew.1) = true) (address : Nat) (blocks : List JobBlock) :
    Progress [tile] 1 run ((run.gNew.2.gNew.2.reads address blocks).emit (tile run.firstTile)) := by
  simp only [WorkerRun.gNew] at worked
  constructor
  · exact Nat.le_refl 1
  · rw [WorkerRun.emit, completions_complete, completions_reads]
    simp [WorkerRun.gNew, markDones, running.first]
  · simp [WorkerRun.emit]
  · simp [WorkerRun.emit]
  · simp
  · simp [WorkerRun.emit, WorkerRun.reads, WorkerRun.gNew, running.error]
  · intro none_left
    simp [WorkerRun.emit, WorkerRun.reads, WorkerRun.gNew, running.error, none_left]
  · intro recovers
    simp only [Recovers, running.error] at recovers
    have next := pairs_recover_next recovers
    rw [if_pos worked] at next
    simpa [Recovers, WorkerRun.emit, WorkerRun.reads, WorkerRun.gNew, running.error] using next

section Loops

variable {job : EncVncPlanar}

theorem tile_stops (rectIndex : Nat) (rect : EncVncPlanarRect) (tileWidth yoffset bheight : Int)
    (run : WorkerRun) (xoffset : Int) (failed : run.error = true) :
    processTile job rectIndex rect tileWidth yoffset bheight run xoffset = run := by
  simp only [processTile]
  rw [if_pos failed]

theorem tile_row_stops (rectIndex : Nat) (rect : EncVncPlanarRect) (tileWidth tileHeight : Int)
    (run : WorkerRun) (yoffset : Int) (failed : run.error = true) :
    processTileRow job rectIndex rect tileWidth tileHeight run yoffset = run := by
  simp only [processTileRow]
  rw [if_pos failed]

theorem rect_stops (run : WorkerRun) (item : EncVncPlanarRect × Nat) (failed : run.error = true) :
    processRect job run item = run := by
  simp only [processRect]
  rw [if_pos failed]

/-- A tile of the search is compressed whole. -/
theorem tile_lines (rect : EncVncPlanarRect) {yoffset bheight xoffset bwidth : Int}
    (height : 0 < bheight) (area : bwidth.toNat * bheight.toNat ≤ 4096) :
    (compressSnapshotTile job rect yoffset bheight xoffset bwidth).1 = bheight.toNat := by
  obtain ⟨bytes, compressed, -⟩ := @compress_tile_rows bwidth.toNat bheight.toNat (by omega) area
    (snapshotData job.pixels) (rect.dataOffset + (yoffset * rect.width + xoffset) * 4)
    (rect.width * 4)
  rw [compressSnapshotTile, compressed]

theorem tile_progress (rectIndex : Nat) {rect : EncVncPlanarRect}
    {tileWidth yoffset bheight xoffset : Int} (height : 0 < bheight)
    (area : (min (rect.width - xoffset) tileWidth).toNat * bheight.toNat ≤ 4096)
    {run : WorkerRun} (running : Running run) :
    ∃ count, Progress [tilePlan job rectIndex rect tileWidth yoffset bheight xoffset] count run
      (processTile job rectIndex rect tileWidth yoffset bheight run xoffset) := by
  have lines := @tile_lines job rect yoffset bheight xoffset _ height area
  simp only [processTile]
  rw [if_neg (by simp [running.error]), if_neg (by simp [lines])]
  have read := running_reads running job.address [.rects, .rects, .enc, .rects, .pixels]
  cases worked : ((run.reads job.address [.rects, .rects, .enc, .rects, .pixels]).gNew.1 &&
      (run.reads job.address [.rects, .rects, .enc, .rects, .pixels]).gNew.2.gNew.1) with
  | false =>
      rw [if_pos (by rw [← Bool.not_and, worked]; rfl)]
      exact ⟨0, reads_progress (progress_failed read _ worked)⟩
  | true =>
      rw [if_neg (by rw [← Bool.not_and, worked]; simp)]
      exact ⟨1, reads_progress (progress_emitted read
        (tilePlan job rectIndex rect tileWidth yoffset bheight xoffset) worked _ _)⟩

theorem tile_row_progress (rectIndex : Nat) {rect : EncVncPlanarRect}
    {tileWidth tileHeight yoffset : Int} (width : 0 < tileWidth) (height : 0 < tileHeight)
    (area : tileWidth.toNat * tileHeight.toNat ≤ 4096) (inside : yoffset < rect.height)
    {run : WorkerRun} (running : Running run) :
    ∃ count, Progress (rowPlan job rectIndex rect tileWidth tileHeight yoffset) count run
      (processTileRow job rectIndex rect tileWidth tileHeight run yoffset) := by
  have tiles : ∃ count, Progress (rowPlan job rectIndex rect tileWidth tileHeight yoffset) count
      (run.reads job.address [.rects, .rects])
      ((forRange 0 rect.width tileWidth).foldl (processTile job rectIndex rect tileWidth yoffset
        (min (rect.height - yoffset) tileHeight)) (run.reads job.address [.rects, .rects])) := by
    rw [rowPlan, List.map_eq_flatMap]
    apply progress_fold _ _ _ (running_reads running _ _)
    · exact tile_stops rectIndex rect tileWidth yoffset _
    · intro xoffset member run running
      have bounds := for_range_bounds width member
      apply tile_progress rectIndex (by omega) _ running
      apply Nat.le_trans _ area
      apply Nat.mul_le_mul <;> omega
  obtain ⟨count, progress⟩ := tiles
  have row := reads_progress progress
  refine ⟨count, ?_⟩
  simp only [processTileRow]
  rw [if_neg (by simp [running.error])]
  split
  · exact row
  · exact progress_reads row _ _

/-- Snapshots of jobs hold the pixels of their rectangles. -/
def SnapshotBounds (job : EncVncPlanar) (rect : EncVncPlanarRect) : Prop :=
  0 ≤ rect.dataOffset ∧ rect.dataOffset + rect.width * rect.height * 4 ≤ job.pixelsBytes

theorem rect_progress {item : EncVncPlanarRect × Nat}
    (bounds : 0 < item.1.width → 0 < item.1.height → SnapshotBounds job item.1)
    {run : WorkerRun} (running : Running run) :
    ∃ count, Progress (rectPlan job item) count run (processRect job run item) := by
  simp only [processRect]
  rw [if_neg (by simp [running.error])]
  by_cases empty : item.1.width < 1 ∨ item.1.height < 1
  · rw [if_pos empty, rectPlan, if_pos empty]
    exact ⟨0, progress_reads (progress_none running) _ _⟩
  · have inside := bounds (by omega) (by omega)
    rw [if_neg empty, if_neg (by rw [SnapshotBounds] at inside; omega), rectPlan, if_neg empty]
    obtain ⟨width, height, area⟩ := @tile_size_bounds item.1.width.toNat item.1.height.toNat
      (by omega) (by omega)
    have read := running_reads (running_reads running job.address [.enc, .enc, .rects]) job.address
      [.rects, .enc, .rects]
    obtain ⟨count, progress⟩ := progress_fold (tile_row_stops item.2 item.1
      (tileSize item.1.width.toNat item.1.height.toNat).1
      (tileSize item.1.width.toNat item.1.height.toNat).2)
      (forRange 0 item.1.height (tileSize item.1.width.toNat item.1.height.toNat).2)
      (fun yoffset member run running => tile_row_progress item.2 (by omega) (by omega)
        (by simpa using area) (for_range_bounds (by omega) member).2 running) read
    have rows := reads_progress (reads_progress progress)
    refine ⟨count, ?_⟩
    split
    · exact progress_reads (progress_reads rows _ _) _ _
    · exact progress_reads rows _ _

/-- The snapshots of a job are where its rectangles say. -/
def ReadyJob (job : EncVncPlanar) : Prop := ∀ rect ∈ job.rects, SnapshotBounds job rect

/-- The same, but empty rectangles have no snapshot. -/
def HoldsSnapshots (job : EncVncPlanar) : Prop :=
  ∀ rect ∈ job.rects, 0 < rect.width → 0 < rect.height → SnapshotBounds job rect

theorem ready_holds (ready : ReadyJob job) : HoldsSnapshots job :=
  fun rect member _ _ => ready rect member

theorem rects_progress (holds : HoldsSnapshots job) {run : WorkerRun} (running : Running run) :
    ∃ count, Progress (jobPlan job) count run (processRects job run) := by
  obtain ⟨count, progress⟩ := progress_fold rect_stops job.rects.zipIdx
    (fun item member run running =>
      rect_progress (holds item.1 (List.fst_mem_of_mem_zipIdx member)) running) running
  refine ⟨count, ?_⟩
  simp only [processRects]
  split
  · exact progress
  · exact progress_reads progress _ _

end Loops

/-! ## Whole jobs -/

/-- What the thread completes of a job. -/
inductive Completed (job : EncVncPlanar) (allocs : List Bool) : List EncDone → Prop where
  | whole : Completed job allocs (markDones true (jobPlan job))
  | broken (count : Nat) : allocs ≠ [] → count < (jobPlan job).length →
      Completed job allocs
        (markDones true ((jobPlan job).take count) ++ [finalDone job (decide (0 < count))])
  | lost (count : Nat) : ¬AllocsRecover allocs → count < (jobPlan job).length →
      Completed job allocs (markDones true ((jobPlan job).take count))

theorem allocs_recover_next {allocs : List Bool} (recovers : AllocsRecover allocs) :
    if (allocs.headD true && allocs.tail.headD true && allocs.tail.tail.headD true) = true then
      PairsRecover allocs.tail.tail.tail
    else
      allocs.tail.tail.tail.headD true = true := by
  match allocs with
  | [] => trivial
  | [first] => cases first <;> simp [PairsRecover]
  | [first, second] => cases first <;> cases second <;> simp [PairsRecover]
  | first :: second :: third :: rest => exact recovers

theorem new_tile_buffers_effect {run : WorkerRun} (running : run.error = false) :
    ∃ allocs error, newTileBuffers run = { run with allocs, error } ∧
      (run.allocs = [] → allocs = [] ∧ error = false) ∧
      (AllocsRecover run.allocs → Recovers { run with allocs, error }) := by
  have next := @allocs_recover_next run.allocs
  have later := @pairs_recover_next run.allocs.tail.tail.tail
  simp only [newTileBuffers]
  generalize buffers : run.gNew.2.gNew.2.gNew = third
  cases worked : (run.gNew.1 && run.gNew.2.gNew.1 && third.1) with
  | false =>
      have heads : (run.allocs.headD true && run.allocs.tail.headD true &&
          run.allocs.tail.tail.headD true) = false := by rw [← worked, ← buffers]; rfl
      rw [heads, if_neg (by simp)] at next
      rw [if_pos (by rw [← Bool.not_and, ← Bool.not_and, worked]; rfl), ← buffers]
      refine ⟨run.allocs.tail.tail.tail, true, rfl, ?_, fun recovers => next recovers⟩
      intro none_left
      simp [none_left] at heads
  | true =>
      have heads : (run.allocs.headD true && run.allocs.tail.headD true &&
          run.allocs.tail.tail.headD true) = true := by rw [← buffers] at worked; exact worked
      rw [heads, if_pos rfl] at next
      rw [if_neg (by rw [← Bool.not_and, ← Bool.not_and, worked]; simp), ← buffers]
      cases paired : (run.gNew.2.gNew.2.gNew.2.gNew.1 && run.gNew.2.gNew.2.gNew.2.gNew.2.gNew.1) with
      | false =>
          have laterHeads : (run.allocs.tail.tail.tail.headD true &&
              run.allocs.tail.tail.tail.tail.headD true) = false := paired
          rw [laterHeads, if_neg (by simp)] at later
          rw [if_pos (by rw [← Bool.not_and, paired]; rfl)]
          refine ⟨run.allocs.tail.tail.tail.tail.tail, true, rfl, ?_,
            fun recovers => later (next recovers)⟩
          intro none_left
          simp [none_left] at laterHeads
      | true =>
          have laterHeads : (run.allocs.tail.tail.tail.headD true &&
              run.allocs.tail.tail.tail.tail.headD true) = true := paired
          rw [laterHeads, if_pos rfl] at later
          rw [if_neg (by rw [← Bool.not_and, paired]; simp)]
          refine ⟨run.allocs.tail.tail.tail.tail.tail, false, ?_, ?_,
            fun recovers => later (next recovers)⟩
          · rw [← running]
            rfl
          · intro none_left
            simp [none_left]

/-- The work on a job up to `finish:`. -/
def encodeTiles (job : EncVncPlanar) (allocs : List Bool) : WorkerRun :=
  let run := newTileBuffers ((WorkerRun.start allocs).reads job.address [.enc])
  if run.error then run else processRects job run

/-- The first `count` tiles have been completed: all of them unless an allocation failed. -/
structure Encoded (job : EncVncPlanar) (allocs : List Bool) (count : Nat) (run : WorkerRun) :
    Prop where
  emitted : completions run.actions = markDones true ((jobPlan job).take count)
  flag : run.emittedCompletion = decide (0 < count)
  whole : run.error = false → count = (jobPlan job).length
  broken : run.error = true → count < (jobPlan job).length ∧ allocs ≠ [] ∧
    (AllocsRecover allocs → run.allocs.headD true = true)

theorem encode_tiles {job : EncVncPlanar} (holds : HoldsSnapshots job) (some_tile : jobPlan job ≠ [])
    (allocs : List Bool) : ∃ count, Encoded job allocs count (encodeTiles job allocs) := by
  have positive := List.length_pos_iff.mpr some_tile
  simp only [encodeTiles]
  obtain ⟨left, error, same, available, recovers⟩ := @new_tile_buffers_effect
    ((WorkerRun.start allocs).reads job.address [.enc]) rfl
  rw [same]
  cases error with
  | true =>
      rw [if_pos rfl]
      refine ⟨0, ?_, rfl, by simp, fun _ => ⟨positive, ?_, ?_⟩⟩
      · rw [completions_reads]
        rfl
      · intro none_left
        simpa using available none_left
      · intro recovering
        simpa [Recovers] using recovers recovering
  | false =>
      rw [if_neg (by simp)]
      obtain ⟨count, progress⟩ := @rects_progress job holds
        { (WorkerRun.start allocs).reads job.address [.enc] with
          allocs := left, error := false } ⟨rfl, rfl⟩
      refine ⟨count, ?_, ?_, progress.whole, fun failed => ⟨progress.broken failed, ?_, ?_⟩⟩
      · rw [progress.emitted, completions_reads]
        rfl
      · rw [progress.flag]
        rfl
      · intro none_left
        have found := progress.available (available none_left).1
        rw [failed] at found
        exact absurd found.2 (by simp)
      · intro recovering
        have found := progress.recovers (recovers recovering)
        rw [Recovers, if_pos failed] at found
        exact found

/-- From `finish:` on, after all tiles. -/
theorem finish_whole {job : EncVncPlanar} {allocs : List Bool} {run : WorkerRun} {count : Nat}
    (some_tile : jobPlan job ≠ []) (encoded : Encoded job allocs count run)
    (worked : run.error = false) :
    completions (profileJob job (finishJob job run)).actions = markDones true (jobPlan job) := by
  have positive := List.length_pos_iff.mpr some_tile
  have all := encoded.whole worked
  rw [profileJob, completions_reads, finishJob,
    if_neg (by simp [worked, encoded.flag]; omega), encoded.emitted, all, List.take_length]

/-- From `finish:` on, after a failure. -/
theorem finish_broken {job : EncVncPlanar} {allocs : List Bool} {run : WorkerRun} {count : Nat}
    (encoded : Encoded job allocs count run) (failed : run.error = true) :
    completions (profileJob job (finishJob job run)).actions =
      markDones true ((jobPlan job).take count) ++
        if run.allocs.headD true then [finalDone job (decide (0 < count))] else [] := by
  rw [profileJob, completions_reads, finishJob, if_pos (by simp [failed])]
  simp only []
  have same : completions run.gNew.2.actions = completions run.actions := rfl
  have sameFlag : (run.gNew.2.reads job.address [.enc]).emittedCompletion =
      run.emittedCompletion := rfl
  cases worked : run.gNew.1 with
  | true =>
      have head : run.allocs.headD true = true := worked
      rw [if_pos rfl, completions_complete, completions_reads, same, encoded.emitted, sameFlag,
        encoded.flag, if_pos head]
  | false =>
      have head : ¬run.allocs.headD true = true := by
        rw [show run.allocs.headD true = false from worked]
        simp
      rw [if_neg (by simp), same, encoded.emitted, if_neg head, List.append_nil]

theorem finish_completed {job : EncVncPlanar} {allocs : List Bool} {run : WorkerRun} {count : Nat}
    (some_tile : jobPlan job ≠ []) (encoded : Encoded job allocs count run) :
    Completed job allocs (completions (profileJob job (finishJob job run)).actions) := by
  cases failed : run.error with
  | false =>
      rw [finish_whole some_tile encoded failed]
      exact .whole
  | true =>
      obtain ⟨short, some_alloc, recovers⟩ := encoded.broken failed
      rw [finish_broken encoded failed]
      cases worked : run.allocs.headD true with
      | true =>
          rw [if_pos rfl]
          exact .broken count some_alloc short
      | false =>
          rw [if_neg (by simp), List.append_nil]
          apply Completed.lost count _ short
          intro recovering
          rw [recovers recovering] at worked
          exact absurd worked (by simp)

theorem worker_completions {job : EncVncPlanar} (holds : HoldsSnapshots job)
    (some_tile : jobPlan job ≠ []) (allocs : List Bool) :
    Completed job allocs (completions (processEncVncPlanar job allocs)) := by
  obtain ⟨count, encoded⟩ := encode_tiles holds some_tile allocs
  exact finish_completed some_tile encoded

end XrdpConsole.WorkerTrace
