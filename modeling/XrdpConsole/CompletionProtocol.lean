import XrdpConsole.PlanarPipeline

/-!
# The completions of any job

`xrdp_mm_egfx_schedule_planar_rects` and `process_enc_vnc_planar` both skip empty rectangles.
For a list that may have some, the completions of the job end with a last one where its last
rectangle has pixels, or where an allocation fails.
-/

namespace XrdpConsole.CompletionProtocol

open XrdpConsole.Library
open XrdpConsole.VncState
open XrdpConsole.Region
open XrdpConsole.MmState
open XrdpConsole.PlanarSend
open XrdpConsole.PlanarTiles
open XrdpConsole.PlanarWorker
open XrdpConsole.WorkerTrace
open XrdpConsole.JobCompletions
open XrdpConsole.MmFrames
open XrdpConsole.PlanarPipeline

set_option autoImplicit false

/-! ## Failed allocations -/

/-- One of the first `count` allocations fails. -/
def FailsWithin (allocs : List Bool) (count : Nat) : Prop :=
  ∃ index < count, allocs.getD index true = false

instance (allocs : List Bool) (count : Nat) : Decidable (FailsWithin allocs count) :=
  inferInstanceAs (Decidable (∃ index < count, _))

theorem fails_within_zero (allocs : List Bool) : ¬FailsWithin allocs 0 := by simp [FailsWithin]

theorem fails_within_add (allocs : List Bool) (count more : Nat) :
    FailsWithin allocs (count + more) ↔
      FailsWithin allocs count ∨ FailsWithin (allocs.drop count) more := by
  constructor
  · rintro ⟨index, bound, failed⟩
    by_cases early : index < count
    · exact .inl ⟨index, early, failed⟩
    · refine .inr ⟨index - count, by omega, ?_⟩
      rw [List.getD_eq_getElem?_getD, List.getElem?_drop, Nat.add_sub_cancel' (by omega)]
      rwa [List.getD_eq_getElem?_getD] at failed
  · rintro (⟨index, bound, failed⟩ | ⟨index, bound, failed⟩)
    · exact ⟨index, by omega, failed⟩
    · refine ⟨count + index, by omega, ?_⟩
      rw [List.getD_eq_getElem?_getD, List.getElem?_drop] at failed
      rwa [List.getD_eq_getElem?_getD]

theorem fails_within_succ (allocs : List Bool) (count : Nat) :
    FailsWithin allocs (count + 1) ↔
      allocs.headD true = false ∨ FailsWithin allocs.tail count := by
  rw [Nat.add_comm, fails_within_add, List.drop_one]
  have first : FailsWithin allocs 1 ↔ allocs.headD true = false := by
    cases allocs <;> simp [FailsWithin]
  rw [first]

/-- Between `before` and `after` the two allocations of each of `tiles` tiles were made, unless
one of them failed. -/
structure Spent (tiles : Nat) (before after : WorkerRun) : Prop where
  worked : after.error = false →
    ¬FailsWithin before.allocs (2 * tiles) ∧ after.allocs = before.allocs.drop (2 * tiles)
  failed : after.error = true → FailsWithin before.allocs (2 * tiles)

theorem spent_none {run : WorkerRun} (running : run.error = false) : Spent 0 run run where
  worked _ := ⟨fails_within_zero run.allocs, by simp⟩
  failed failed := by simp [running] at failed

theorem spent_reads {tiles : Nat} {before after : WorkerRun} (spent : Spent tiles before after)
    (address : Nat) (blocks : List JobBlock) : Spent tiles before (after.reads address blocks) :=
  ⟨spent.worked, spent.failed⟩

theorem reads_spent {tiles : Nat} {before after : WorkerRun} {address : Nat}
    {blocks : List JobBlock} (spent : Spent tiles (before.reads address blocks) after) :
    Spent tiles before after :=
  ⟨spent.worked, spent.failed⟩

theorem spent_append {tiles more : Nat} {before middle after : WorkerRun}
    (first : Spent tiles before middle) (second : middle.error = false → Spent more middle after)
    (stopped : middle.error = true → after = middle) : Spent (tiles + more) before after := by
  cases failed : middle.error with
  | true =>
      have early := first.failed failed
      rw [stopped failed]
      refine ⟨fun worked => ?_, fun _ => ?_⟩
      · rw [failed] at worked
        contradiction
      · rw [Nat.mul_add, fails_within_add]
        exact .inl early
  | false =>
      obtain ⟨none_failed, left⟩ := first.worked failed
      have later := second failed
      refine ⟨fun worked => ?_, fun broken => ?_⟩
      · obtain ⟨none_later, rest⟩ := later.worked worked
        rw [left] at none_later rest
        rw [Nat.mul_add, fails_within_add, rest, List.drop_drop]
        exact ⟨by tauto, rfl⟩
      · have found := later.failed broken
        rw [left] at found
        rw [Nat.mul_add, fails_within_add]
        exact .inr found

theorem spent_fold {Item : Type} {body : WorkerRun → Item → WorkerRun}
    {plan : Item → List (Bool → EncDone)}
    (stops : ∀ run item, run.error = true → body run item = run) (items : List Item)
    (step : ∀ item ∈ items, ∀ run : WorkerRun, run.error = false →
      Spent (plan item).length run (body run item))
    {run : WorkerRun} (running : run.error = false) :
    Spent (items.flatMap plan).length run (items.foldl body run) := by
  have stays : ∀ (items : List Item) (run : WorkerRun), run.error = true →
      items.foldl body run = run := by
    intro items
    induction items with
    | nil => exact fun run _ => rfl
    | cons item items ih =>
        intro run failed
        rw [List.foldl_cons, stops run item failed, ih run failed]
  induction items generalizing run with
  | nil => exact spent_none running
  | cons item items ih =>
      have first := step item (List.mem_cons_self ..) run running
      rw [List.flatMap_cons, List.foldl_cons, List.length_append]
      apply spent_append first
      · exact ih fun other member => step other (List.mem_cons_of_mem item member)
      · exact stays items (body run item)

section Loops

variable {job : EncVncPlanar}

theorem tile_spent (rectIndex : Nat) {rect : EncVncPlanarRect}
    {tileWidth yoffset bheight xoffset : Int} (height : 0 < bheight)
    (area : (min (rect.width - xoffset) tileWidth).toNat * bheight.toNat ≤ 4096)
    {run : WorkerRun} (running : run.error = false) :
    Spent 1 run (processTile job rectIndex rect tileWidth yoffset bheight run xoffset) := by
  have lines := @tile_lines job rect yoffset bheight xoffset _ height area
  simp only [processTile]
  rw [if_neg (by simp [running]), if_neg (by simp [lines])]
  apply @reads_spent 1 run _ job.address [.rects, .rects, .enc, .rects, .pixels]
  generalize read : run.reads job.address [.rects, .rects, .enc, .rects, .pixels] = tile
  have still : tile.error = false := by rw [← read]; exact running
  have two : FailsWithin tile.allocs (2 * 1) ↔
      tile.gNew.1 = false ∨ tile.gNew.2.gNew.1 = false := by
    rw [show 2 * 1 = 0 + 1 + 1 from rfl, fails_within_succ, fails_within_succ]
    simp [fails_within_zero, WorkerRun.gNew]
  cases worked : (tile.gNew.1 && tile.gNew.2.gNew.1) with
  | false =>
      rw [if_pos (by rw [← Bool.not_and, worked]; rfl)]
      refine ⟨fun never => by simp [WorkerRun.fail] at never, fun _ => ?_⟩
      rw [two, ← Bool.and_eq_false_iff]
      exact worked
  | true =>
      rw [if_neg (by rw [← Bool.not_and, worked]; simp)]
      rw [Bool.and_eq_true] at worked
      refine ⟨fun _ => ⟨?_, ?_⟩, fun broken => ?_⟩
      · rw [two, worked.1, worked.2]
        simp
      · change tile.allocs.tail.tail = tile.allocs.drop 2
        simp only [← List.drop_one, List.drop_drop]
      · simp [WorkerRun.emit, WorkerRun.reads, WorkerRun.gNew, still] at broken

theorem tile_row_spent (rectIndex : Nat) {rect : EncVncPlanarRect}
    {tileWidth tileHeight yoffset : Int} (width : 0 < tileWidth) (height : 0 < tileHeight)
    (area : tileWidth.toNat * tileHeight.toNat ≤ 4096) (inside : yoffset < rect.height)
    {run : WorkerRun} (running : run.error = false) :
    Spent (rowPlan job rectIndex rect tileWidth tileHeight yoffset).length run
      (processTileRow job rectIndex rect tileWidth tileHeight run yoffset) := by
  have tiles : Spent (rowPlan job rectIndex rect tileWidth tileHeight yoffset).length
      (run.reads job.address [.rects, .rects])
      ((forRange 0 rect.width tileWidth).foldl (processTile job rectIndex rect tileWidth yoffset
        (min (rect.height - yoffset) tileHeight)) (run.reads job.address [.rects, .rects])) := by
    have still : (run.reads job.address [.rects, .rects]).error = false := running
    rw [rowPlan, List.map_eq_flatMap]
    apply spent_fold _ _ _ still
    · exact tile_stops rectIndex rect tileWidth yoffset _
    · intro xoffset member run running
      have bounds := for_range_bounds width member
      apply tile_spent rectIndex (by omega) _ running
      apply Nat.le_trans _ area
      apply Nat.mul_le_mul <;> omega
  have row := reads_spent tiles
  simp only [processTileRow]
  rw [if_neg (by simp [running])]
  split
  · exact row
  · exact spent_reads row _ _

theorem rect_spent {item : EncVncPlanarRect × Nat}
    (bounds : 0 < item.1.width → 0 < item.1.height → SnapshotBounds job item.1)
    {run : WorkerRun} (running : run.error = false) :
    Spent (rectPlan job item).length run (processRect job run item) := by
  simp only [processRect]
  rw [if_neg (by simp [running])]
  by_cases empty : item.1.width < 1 ∨ item.1.height < 1
  · rw [if_pos empty, rectPlan, if_pos empty]
    exact spent_reads (spent_none running) _ _
  · have inside := bounds (by omega) (by omega)
    rw [if_neg empty, if_neg (by rw [SnapshotBounds] at inside; omega), rectPlan, if_neg empty]
    obtain ⟨width, height, area⟩ := @tile_size_bounds item.1.width.toNat item.1.height.toNat
      (by omega) (by omega)
    have still : ((run.reads job.address [.enc, .enc, .rects]).reads job.address
        [.rects, .enc, .rects]).error = false := running
    have spent := spent_fold (@tile_row_stops job item.2 item.1
      (tileSize item.1.width.toNat item.1.height.toNat).1
      (tileSize item.1.width.toNat item.1.height.toNat).2)
      (forRange 0 item.1.height (tileSize item.1.width.toNat item.1.height.toNat).2)
      (fun yoffset member run running => tile_row_spent item.2 (by omega) (by omega)
        (by simpa using area) (for_range_bounds (by omega) member).2 running) still
    have rows := reads_spent (reads_spent spent)
    split
    · exact spent_reads (spent_reads rows _ _) _ _
    · exact spent_reads rows _ _

theorem rects_spent (holds : HoldsSnapshots job) {run : WorkerRun} (running : run.error = false) :
    Spent (jobPlan job).length run (processRects job run) := by
  have spent := spent_fold rect_stops job.rects.zipIdx
    (fun item member run running =>
      rect_spent (holds item.1 (List.fst_mem_of_mem_zipIdx member)) running) running
  simp only [processRects]
  split
  · exact spent
  · exact spent_reads spent _ _

end Loops

theorem buffers_spent {run : WorkerRun} (running : run.error = false) :
    ((newTileBuffers run).error = true → FailsWithin run.allocs 5) ∧
      ((newTileBuffers run).error = false →
        ¬FailsWithin run.allocs 5 ∧ (newTileBuffers run).allocs = run.allocs.drop 5) := by
  have five : FailsWithin run.allocs 5 ↔ run.gNew.1 = false ∨ run.gNew.2.gNew.1 = false ∨
      run.gNew.2.gNew.2.gNew.1 = false ∨ run.gNew.2.gNew.2.gNew.2.gNew.1 = false ∨
      run.gNew.2.gNew.2.gNew.2.gNew.2.gNew.1 = false := by
    rw [show 5 = 0 + 1 + 1 + 1 + 1 + 1 from rfl]
    simp only [fails_within_succ]
    simp [fails_within_zero, WorkerRun.gNew]
  have kept : run.gNew.2.gNew.2.gNew.2.gNew.2.gNew.2.error = false := running
  rw [five]
  simp only [newTileBuffers]
  split
  · rename_i failed
    refine ⟨fun _ => ?_, fun never => by simp [WorkerRun.fail] at never⟩
    simp only [Bool.or_eq_true, Bool.not_eq_true'] at failed
    tauto
  · rename_i worked
    simp only [Bool.or_eq_true, Bool.not_eq_true', not_or] at worked
    split
    · rename_i failed
      refine ⟨fun _ => ?_, fun never => by simp [WorkerRun.fail] at never⟩
      simp only [Bool.or_eq_true, Bool.not_eq_true'] at failed
      tauto
    · rename_i both
      simp only [Bool.or_eq_true, Bool.not_eq_true', not_or] at both
      refine ⟨fun broken => by simp [kept] at broken, fun _ => ⟨by tauto, ?_⟩⟩
      change run.allocs.tail.tail.tail.tail.tail = run.allocs.drop 5
      simp only [← List.drop_one, List.drop_drop]

/-- The thread fails exactly where one of the allocations up to the last tile does. -/
theorem encode_tiles_fails {job : EncVncPlanar} (holds : HoldsSnapshots job)
    (allocs : List Bool) :
    (encodeTiles job allocs).error = true ↔ FailsWithin allocs (5 + 2 * (jobPlan job).length) := by
  have buffers := @buffers_spent ((WorkerRun.start allocs).reads job.address [.enc]) rfl
  have start : ((WorkerRun.start allocs).reads job.address [.enc]).allocs = allocs := rfl
  rw [start] at buffers
  simp only [encodeTiles]
  generalize newTileBuffers ((WorkerRun.start allocs).reads job.address [.enc]) = run at buffers ⊢
  rw [fails_within_add]
  cases failed : run.error with
  | true =>
      rw [if_pos rfl, failed]
      simp [buffers.1 failed]
  | false =>
      obtain ⟨none_failed, left⟩ := buffers.2 failed
      have spent := rects_spent holds failed
      rw [if_neg (by simp), ← left]
      constructor
      · exact fun broken => .inr (spent.failed broken)
      · rintro (early | late)
        · exact absurd early none_failed
        · by_contra worked
          exact (spent.worked (by simpa using worked)).1 late

/-! ## Queued jobs -/

variable {R : Type} {self : Mm R} {bitmap : Bitmap} {rects : List Rect} {surfaceId x y : Int}
  {job : EncVncPlanar}

/-- The scheduler takes the rectangles and queues `job` for them. -/
def QueuesJob (self : Mm R) (bitmap : Bitmap) (rects : List Rect) (surfaceId x y : Int)
    (job : EncVncPlanar) : Prop :=
  ∃ encoder after, self.encoder = some encoder ∧
    xrdpMmEgfxSchedulePlanarRects self bitmap rects surfaceId x y = (true, after) ∧
    after.encoder = some { encoder with fifoToProc := encoder.fifoToProc ++ [job] }

/-- The tiles of all rectangles with pixels. -/
def tileCount (rects : List Rect) : Nat :=
  (rects.flatMap fun rect => if rect.Solid then tileRects rect else []).length

def LastSolid (rects : List Rect) : Prop := ∃ rect, rects.getLast? = some rect ∧ rect.Solid

theorem snapshot_bytes_solid {rects : List Rect} {totalBytes : Int} {bytes : Int}
    (counted : snapshotBytes rects totalBytes = some bytes) (more : totalBytes < bytes) :
    ∃ rect ∈ rects, rect.Solid := by
  induction rects generalizing totalBytes with
  | nil =>
      obtain rfl : totalBytes = bytes := Option.some.inj counted
      omega
  | cons rect rest ih =>
      simp only [snapshotBytes] at counted
      by_cases empty : rect.right - rect.left < 1 ∨ rect.bottom - rect.top < 1
      · rw [if_pos empty] at counted
        obtain ⟨other, member, solid⟩ := ih counted more
        exact ⟨other, List.mem_cons_of_mem rect member, solid⟩
      · refine ⟨rect, List.mem_cons_self .., ?_⟩
        simp only [Rect.Solid]
        omega

theorem queued_planar_job (queued : QueuesJob self bitmap rects surfaceId x y job) :
    ∃ encoder, job = planarJob self encoder bitmap rects surfaceId x y ∧
      ∃ rect ∈ rects, rect.Solid := by
  obtain ⟨encoder, after, present, scheduled, queue⟩ := queued
  have grew : ∀ same : Mm R, same.encoder = self.encoder → after ≠ same := by
    rintro _ same rfl
    rw [same, present, Option.some.injEq] at queue
    have length := congrArg (·.fifoToProc.length) queue
    simp at length
  simp only [xrdpMmEgfxSchedulePlanarRects, present] at scheduled
  split at scheduled
  · exact absurd (Prod.mk.inj scheduled).2.symm (grew self rfl)
  · cases counted : snapshotBytes rects 0 with
    | none => simp [counted] at scheduled
    | some totalBytes =>
        simp only [counted] at scheduled
        split at scheduled
        · exact absurd (Prod.mk.inj scheduled).2.symm (grew self rfl)
        · rename_i some_bytes
          split at scheduled
          · simp at scheduled
          · split at scheduled
            · simp at scheduled
            · obtain rfl := (Prod.mk.inj scheduled).2
              refine ⟨encoder, ?_, snapshot_bytes_solid counted (by omega)⟩
              simpa [queueJob, eq_comm] using queue

theorem planar_job_entries (encoder : Encoder) :
    (planarJob self encoder bitmap rects surfaceId x y).rects.map entryRect = rects :=
  snapshot_rects_map bitmap rects 0

theorem planar_job_holds (encoder : Encoder) :
    HoldsSnapshots (planarJob self encoder bitmap rects surfaceId x y) := by
  intro rect member width height
  obtain ⟨lower, upper⟩ := snapshot_rects_holds bitmap rects 0 member width height
  rw [Int.zero_add] at upper
  exact ⟨lower, upper⟩

theorem entry_solid_iff (entry : EncVncPlanarRect) :
    (entryRect entry).Solid ↔ 0 < entry.width ∧ 0 < entry.height := by
  simp only [Rect.Solid, entryRect]
  omega

/-- The loops of the thread take as many tiles as those of the synchronous path. -/
theorem rect_plan_length (item : EncVncPlanarRect × Nat) :
    (rectPlan job item).length =
      (if (entryRect item.1).Solid then tileRects (entryRect item.1) else []).length := by
  have width : (entryRect item.1).right - (entryRect item.1).left = item.1.width := by
    simp [entryRect]
  have height : (entryRect item.1).bottom - (entryRect item.1).top = item.1.height := by
    simp [entryRect]
  unfold rectPlan
  by_cases empty : item.1.width < 1 ∨ item.1.height < 1
  · rw [if_pos empty, if_neg (by rw [entry_solid_iff]; omega)]
    rfl
  · rw [if_neg empty, if_pos (by rw [entry_solid_iff]; omega)]
    simp only [tileRects, width, height, List.length_flatMap, List.length_map, rowPlan]
    rw [for_range_shift (entryRect item.1).left, for_range_shift (entryRect item.1).top, width,
      height]
    simp only [List.length_map, List.map_map]
    rfl

theorem job_plan_length (encoder : Encoder) :
    (jobPlan (planarJob self encoder bitmap rects surfaceId x y)).length = tileCount rects := by
  simp only [jobPlan, tileCount, List.length_flatMap, rect_plan_length]
  conv_rhs => rw [← @planar_job_entries R self bitmap rects surfaceId x y encoder]
  rw [List.map_map]
  conv_rhs => rw [← List.zipIdx_map_fst 0 (planarJob self encoder bitmap rects surfaceId x y).rects]
  rw [List.map_map]
  rfl

/-! ## The protocol -/

/-- The completions of one job end with the only last one, and only the first starts the frame. -/
structure FollowsProtocol (dones : List EncDone) : Prop where
  last : OnlyFinal (fun done => done.last = true) dones
  first : ∀ handled done rest, dones = handled ++ done :: rest →
    done.continuation = !handled.isEmpty

/-- A main thread that waits for these completions handles them all before it clears the flag and
frees the snapshot, and does both once. -/
def ReleasesOnce (R : Type) (address : Nat) (dones : List EncDone) : Prop :=
  ∀ (mm : Mm R) (encoder : Encoder), mm.encoder = some encoder →
    encoder.fifoProcessed = dones → mm.vncGfxAsyncPending = true → ∀ rounds : Nat,
      (xrdpMmProcessEncDone^[rounds] mm).vncGfxAsyncPending = decide (rounds < dones.length) ∧
      (xrdpMmProcessEncDone^[rounds] mm).freed =
        mm.freed ++ if rounds < dones.length then [] else [address]

/-- The completions `dones` are queued for the main thread. -/
def Awaits (dones : List EncDone) (mm : Mm R) : Prop :=
  ∃ encoder, mm.encoder = some encoder ∧ encoder.fifoProcessed = dones

theorem awaits_step {mm : Mm R} {done : EncDone} {rest : List EncDone}
    (awaits : Awaits (done :: rest) mm) :
    Awaits rest (xrdpMmProcessEncDone mm) ∧
      (xrdpMmProcessEncDone mm).vncGfxAsyncPending = (mm.vncGfxAsyncPending && !done.last) ∧
      (xrdpMmProcessEncDone mm).freed =
        if done.last then mm.freed ++ [done.enc.address] else mm.freed := by
  obtain ⟨encoder, present, processed⟩ := awaits
  have step := enc_done_step mm
  generalize xrdpMmProcessEncDone mm = after at step ⊢
  cases step with
  | idle none_processed =>
      rw [none_processed encoder present] at processed
      contradiction
  | handled other encDone later sent frameId otherPresent otherProcessed sends =>
      obtain rfl : encoder = other := Option.some.inj (present.symm.trans otherPresent)
      obtain ⟨rfl, rfl⟩ := List.cons.inj (processed.symm.trans otherProcessed)
      refine ⟨?_, rfl, rfl⟩
      cases frameId with
      | none => exact ⟨_, rfl, rfl⟩
      | some frameId => exact ⟨_, rfl, rfl⟩

theorem awaits_none {mm : Mm R} (awaits : Awaits [] mm) (rounds : Nat) :
    xrdpMmProcessEncDone^[rounds] mm = mm := by
  obtain ⟨encoder, present, processed⟩ := awaits
  have stays : xrdpMmProcessEncDone mm = mm := by
    unfold xrdpMmProcessEncDone
    simp only [present, processed]
  exact Function.iterate_fixed stays rounds

/-- Until a last completion comes the flag stays as it is and nothing is freed. -/
theorem awaits_run {handled rest : List EncDone} {mm : Mm R} (awaits : Awaits (handled ++ rest) mm)
    (unmarked : ∀ done ∈ handled, done.last = false) :
    Awaits rest (xrdpMmProcessEncDone^[handled.length] mm) ∧
      (xrdpMmProcessEncDone^[handled.length] mm).vncGfxAsyncPending = mm.vncGfxAsyncPending ∧
      (xrdpMmProcessEncDone^[handled.length] mm).freed = mm.freed := by
  induction handled generalizing mm with
  | nil => exact ⟨awaits, rfl, rfl⟩
  | cons done handled ih =>
      obtain ⟨next, pending, freed⟩ := awaits_step awaits
      have not_last := unmarked done (List.mem_cons_self ..)
      obtain ⟨left, laterPending, laterFreed⟩ :=
        ih next fun other member => unmarked other (List.mem_cons_of_mem done member)
      rw [List.length_cons, Function.iterate_succ_apply]
      refine ⟨left, ?_, ?_⟩
      · rw [laterPending, pending, not_last]
        simp
      · rw [laterFreed, freed, not_last]
        simp

theorem final_releases_once {address : Nat} {dones : List EncDone}
    (only : OnlyFinal (fun done => done.last = true) dones)
    (own : ∀ done ∈ dones, done.enc.address = address) : ReleasesOnce R address dones := by
  obtain ⟨before, final, rfl, last, unmarked⟩ := only
  intro mm encoder present processed pending rounds
  have awaits : Awaits (before ++ [final]) mm := ⟨encoder, present, processed⟩
  simp only [Bool.not_eq_true] at unmarked
  rw [List.length_append, List.length_singleton]
  by_cases early : rounds < before.length + 1
  · have split : before ++ [final] = before.take rounds ++ (before.drop rounds ++ [final]) := by
      rw [← List.append_assoc, List.take_append_drop]
    rw [split] at awaits
    have length : (before.take rounds).length = rounds := by
      rw [List.length_take]
      omega
    obtain ⟨-, same, freed⟩ := awaits_run awaits
      fun done member => unmarked done (List.mem_of_mem_take member)
    rw [length] at same freed
    rw [same, freed, pending, if_pos early]
    simp [early]
  · obtain ⟨next, same, freed⟩ := awaits_run awaits unmarked
    obtain ⟨none_left, cleared, released⟩ := awaits_step next
    obtain ⟨later, rfl⟩ : ∃ later, rounds = later + (before.length + 1) :=
      ⟨rounds - (before.length + 1), by omega⟩
    rw [Function.iterate_add_apply, Function.iterate_succ_apply', awaits_none none_left, cleared,
      released, last, freed, own final (by simp), if_neg early, decide_eq_false early]
    simp

theorem completed_own {allocs : List Bool} {dones : List EncDone}
    (completed : Completed job allocs dones) : ∀ done ∈ dones, done.enc = job := by
  have tiles : ∀ plan : List (Bool → EncDone), (∀ tile ∈ plan, tile ∈ jobPlan job) →
      ∀ done ∈ markDones true plan, done.enc = job := by
    intro plan sub done member
    obtain ⟨tile, tileMember, first, rfl⟩ := mem_mark_dones member
    exact (job_plan_tiles tile (sub tile tileMember)).enc first
  intro done member
  cases completed with
  | whole => exact tiles _ (fun tile found => found) done member
  | broken count _ part =>
      rcases List.mem_append.mp member with earlier | final
      · exact tiles _ (fun tile found => List.mem_of_mem_take found) done earlier
      · rw [List.mem_singleton.mp final]
        rfl
  | lost count _ part => exact tiles _ (fun tile found => List.mem_of_mem_take found) done member

/-- What the completions of a queued job come from. -/
structure PlannedJob (rects : List Rect) (job : EncVncPlanar) : Prop where
  holds : HoldsSnapshots job
  entries : job.rects.map entryRect = rects
  tiles : (jobPlan job).length = tileCount rects
  some_tile : jobPlan job ≠ []

theorem queued_job_planned (queued : QueuesJob self bitmap rects surfaceId x y job) :
    PlannedJob rects job := by
  obtain ⟨encoder, rfl, rect, member, solid⟩ := queued_planar_job queued
  have length := @job_plan_length R self bitmap rects surfaceId x y encoder
  refine ⟨planar_job_holds encoder, planar_job_entries encoder, length, ?_⟩
  apply List.ne_nil_of_length_pos
  obtain ⟨tile, tileMember, -⟩ := @tile_rects_cover rect rect.left rect.top
    ⟨le_rfl, solid.1, le_rfl, solid.2⟩
  rw [length, tileCount]
  apply List.length_pos_of_mem
  exact List.mem_flatMap.mpr ⟨rect, member, by simpa [solid] using tileMember⟩

theorem planned_last_rect (planned : PlannedJob rects job) :
    ∃ entry, job.rects.getLast? = some entry ∧ rects.getLast? = some (entryRect entry) := by
  have some_rect : job.rects ≠ [] := by
    intro none_left
    apply planned.some_tile
    simp [jobPlan, none_left]
  have last := List.getLast?_eq_some_getLast some_rect
  refine ⟨_, last, ?_⟩
  rw [← planned.entries, List.getLast?_map, last]
  rfl

/-- Without a failure the last tile is marked if and only if the last rectangle has pixels. -/
theorem whole_final_iff (planned : PlannedJob rects job) :
    OnlyFinal (fun done => done.last = true) (markDones true (jobPlan job)) ↔ LastSolid rects := by
  obtain ⟨entry, last_entry, last_rect⟩ := planned_last_rect planned
  have tiles := fun tile member => (@job_plan_tiles job tile member).last
  rw [LastSolid, last_rect]
  simp only [Option.some.injEq, exists_eq_left', entry_solid_iff]
  constructor
  · rintro ⟨before, final, same, last, -⟩
    by_contra empty
    have member : final ∈ markDones true (jobPlan job) := by simp [same]
    obtain ⟨tile, tileMember, first, rfl⟩ := mem_mark_dones member
    rw [tiles tile tileMember] at last
    rw [job_plan_unmarked last_entry (by omega) tile tileMember] at last
    contradiction
  · intro solid
    exact mark_dones_final tiles (job_plan_final_of last_entry solid.1 solid.2)

theorem planar_completions_final (planned : PlannedJob rects job) {allocs : List Bool}
    (recovers : AllocsRecover allocs) :
    OnlyFinal (fun done => done.last = true) (completions (processEncVncPlanar job allocs)) ↔
      LastSolid rects ∨ FailsWithin allocs (5 + 2 * tileCount rects) := by
  obtain ⟨count, encoded⟩ := encode_tiles planned.holds planned.some_tile allocs
  have fails := encode_tiles_fails planned.holds allocs
  rw [← planned.tiles, ← fails]
  have run : processEncVncPlanar job allocs =
      (profileJob job (finishJob job (encodeTiles job allocs))).actions := rfl
  rw [run]
  cases failed : (encodeTiles job allocs).error with
  | false =>
      rw [finish_whole planned.some_tile encoded failed, whole_final_iff planned]
      simp
  | true =>
      obtain ⟨short, -, available⟩ := encoded.broken failed
      obtain ⟨entry, last_entry, -⟩ := planned_last_rect planned
      have some_rect : job.rects ≠ [] := by
        rintro none_left
        simp [none_left] at last_entry
      rw [finish_broken encoded failed, if_pos (available recovers)]
      simp [broken_final some_rect short]

theorem planar_completions_first (planned : PlannedJob rects job) {allocs : List Bool}
    (recovers : AllocsRecover allocs) {handled rest : List EncDone} {done : EncDone}
    (same : completions (processEncVncPlanar job allocs) = handled ++ done :: rest) :
    done.continuation = !handled.isEmpty := by
  have completed := worker_completions planned.holds planned.some_tile allocs
  generalize completions (processEncVncPlanar job allocs) = dones at same completed
  cases completed with
  | whole => exact whole_continuation same
  | broken count _ part => exact broken_continuation part same
  | lost count unrecovered => exact absurd recovers unrecovered

/-- The completions of a queued job follow the protocol if and only if its last rectangle has
pixels or an allocation fails on the way. -/
theorem planar_protocol_iff (queued : QueuesJob self bitmap rects surfaceId x y job)
    {allocs : List Bool} (recovers : AllocsRecover allocs) :
    FollowsProtocol (completions (processEncVncPlanar job allocs)) ∧
        ReleasesOnce R job.address (completions (processEncVncPlanar job allocs)) ↔
      LastSolid rects ∨ FailsWithin allocs (5 + 2 * tileCount rects) := by
  have planned := queued_job_planned queued
  rw [← planar_completions_final planned recovers]
  constructor
  · rintro ⟨protocol, -⟩
    exact protocol.last
  · intro final
    have own := completed_own (worker_completions planned.holds planned.some_tile allocs)
    refine ⟨⟨final, fun handled done rest => planar_completions_first planned recovers⟩, ?_⟩
    exact final_releases_once final fun done member => by rw [own done member]

/-! ## An empty last rectangle -/

theorem schedule_queues {encoder : Encoder} {totalBytes : Int} (bitmap : Bitmap)
    (surfaceId x y : Int) (present : self.encoder = some encoder)
    (free : self.vncGfxAsyncPending = false) (available : self.allocResults = [])
    (counted : snapshotBytes rects 0 = some totalBytes) (some_bytes : 0 < totalBytes) :
    QueuesJob self bitmap rects surfaceId x y
      (planarJob self encoder bitmap rects surfaceId x y) := by
  have some_rect : ¬rects.length < 1 := by
    cases rects with
    | nil =>
        obtain rfl : 0 = totalBytes := Option.some.inj counted
        omega
    | cons rect rest => simp
  have enough : ¬totalBytes < 1 := by omega
  refine ⟨encoder, queueJob (gNew (gNew (gNew self).2).2).2 encoder
    (planarJob self encoder bitmap rects surfaceId x y), present, ?_, rfl⟩
  simp [xrdpMmEgfxSchedulePlanarRects, present, counted, free, some_rect, enough, gNew, available]

def pixelScreen : Bitmap := (pixelSession 1 true).wm.screen

/-- A rectangle without pixels. -/
def emptyColumn : Rect where
  left := 0
  top := 0
  right := 0
  bottom := 1

def pixelRectsJob (rects : List Rect) : EncVncPlanar :=
  planarJob (pixelSession 1 true) idleEncoder pixelScreen rects 0 0 0

theorem pixel_rects_queued {rects : List Rect} (counted : snapshotBytes rects 0 = some 4) :
    QueuesJob (pixelSession 1 true) pixelScreen rects 0 0 0 (pixelRectsJob rects) :=
  schedule_queues pixelScreen 0 0 0 rfl rfl rfl counted (by decide)

theorem planar_protocol_two_rects :
    FollowsProtocol (completions (processEncVncPlanar (pixelRectsJob [emptyColumn, pixelRow 1]) []))
      ∧ ReleasesOnce BoxList (pixelRectsJob [emptyColumn, pixelRow 1]).address
        (completions (processEncVncPlanar (pixelRectsJob [emptyColumn, pixelRow 1]) [])) :=
  (@planar_protocol_iff BoxList (pixelSession 1 true) pixelScreen [emptyColumn, pixelRow 1] 0 0 0 _
    (pixel_rects_queued (by decide)) [] trivial).mpr (.inl ⟨pixelRow 1, rfl, by decide⟩)

/-- The rectangle with pixels is not the last one, so that its tile is not marked. -/
theorem empty_last_rect_not_final :
    QueuesJob (pixelSession 1 true) pixelScreen [pixelRow 1, emptyColumn] 0 0 0
        (pixelRectsJob [pixelRow 1, emptyColumn]) ∧
      ¬FollowsProtocol
        (completions (processEncVncPlanar (pixelRectsJob [pixelRow 1, emptyColumn]) [])) := by
  have queued := @pixel_rects_queued [pixelRow 1, emptyColumn] (by decide)
  refine ⟨queued, fun protocol => ?_⟩
  have planned := queued_job_planned queued
  rcases (@planar_completions_final _ _ planned [] trivial).mp protocol.last with solid | fails
  · obtain ⟨rect, last, solid⟩ := solid
    obtain rfl : emptyColumn = rect := Option.some.inj last
    exact absurd solid (by decide)
  · obtain ⟨index, -, failed⟩ := fails
    simp at failed

end XrdpConsole.CompletionProtocol
