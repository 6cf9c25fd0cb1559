import Mathlib.Tactic.Ring
import XrdpConsole.DrawCalls
import XrdpConsole.WorkerTrace

/-!
# The completions of a scheduled job

A job that the scheduler makes has no empty rectangle and a snapshot of the right
size. Its completions all carry its frame id, all but the first continue the
frame, and the last one alone is marked as such.
-/

namespace XrdpConsole.JobCompletions

open XrdpConsole.Library
open XrdpConsole.VncState
open XrdpConsole.PlanarDecode
open XrdpConsole.MmState
open XrdpConsole.PlanarSend
open XrdpConsole.PlanarTiles
open XrdpConsole.PlanarWorker
open XrdpConsole.WorkerTrace

set_option autoImplicit false

/-! ## Jobs -/

structure Scheduled (job : EncVncPlanar) : Prop where
  some_rect : job.rects ≠ []
  solid : ∀ rect ∈ job.rects, 0 < rect.width ∧ 0 < rect.height
  ready : ReadyJob job

theorem source_rows_bytes (data : Int → Byte) (src8 stride : Int) (bytes rows : Nat) :
    (sourceRows data src8 stride bytes rows).flatten.length = rows * bytes := by
  induction rows generalizing src8 with
  | zero => simp [sourceRows]
  | succ rows ih =>
      rw [sourceRows, List.flatten_cons, List.length_append, ih, read_bytes_length, Nat.succ_mul,
        Nat.add_comm]

/-- The bytes of a rectangle of 32-bit pixels. -/
theorem solid_bytes {rect : Rect} (solid : rect.Solid) :
    (((rect.bottom - rect.top).toNat * ((rect.right - rect.left).toNat * 4) : Nat) : Int) =
      (rect.right - rect.left) * (rect.bottom - rect.top) * 4 := by
  simp only [Rect.Solid] at solid
  push_cast
  rw [Int.toNat_of_nonneg (by omega), Int.toNat_of_nonneg (by omega)]
  ring

def entryRect (entry : EncVncPlanarRect) : Rect where
  left := entry.left
  top := entry.top
  right := entry.left + entry.width
  bottom := entry.top + entry.height

theorem snapshot_rects_map (bitmap : Bitmap) (rects : List Rect) (dataOffset : Int) :
    (snapshotRects bitmap rects dataOffset).1.map entryRect = rects := by
  induction rects generalizing dataOffset with
  | nil => rfl
  | cons rect rest ih =>
      simp only [snapshotRects]
      split <;> simp [ih, entryRect]

/-- The snapshots follow one another from `dataOffset` on. -/
theorem snapshot_rects_holds (bitmap : Bitmap) (rects : List Rect) (dataOffset : Int)
    {entry : EncVncPlanarRect} (member : entry ∈ (snapshotRects bitmap rects dataOffset).1)
    (width : 0 < entry.width) (height : 0 < entry.height) :
    dataOffset ≤ entry.dataOffset ∧
      entry.dataOffset + entry.width * entry.height * 4 ≤
        dataOffset + (snapshotRects bitmap rects dataOffset).2.length := by
  induction rects generalizing dataOffset with
  | nil => exact absurd member List.not_mem_nil
  | cons rect rest ih =>
      simp only [snapshotRects] at member ⊢
      by_cases empty : rect.right - rect.left < 1 ∨ rect.bottom - rect.top < 1
      · rw [if_pos empty] at member ⊢
        rcases List.mem_cons.mp member with rfl | later
        · simp only at width height
          omega
        · exact ih _ later
      · rw [if_neg empty] at member ⊢
        have solid : rect.Solid := by
          simp only [Rect.Solid]
          omega
        have area : 0 < (rect.right - rect.left) * (rect.bottom - rect.top) :=
          Int.mul_pos (by omega) (by omega)
        simp only [List.length_append, source_rows_bytes, Int.natCast_add, solid_bytes solid]
        rcases List.mem_cons.mp member with rfl | later
        · simp only
          omega
        · obtain ⟨lower, upper⟩ := ih _ later
          omega

theorem snapshot_rects_bounds (bitmap : Bitmap) {rects : List Rect} (dataOffset : Int)
    (solid : ∀ rect ∈ rects, rect.Solid) {entry : EncVncPlanarRect}
    (member : entry ∈ (snapshotRects bitmap rects dataOffset).1) :
    0 < entry.width ∧ 0 < entry.height ∧ dataOffset ≤ entry.dataOffset ∧
      entry.dataOffset + entry.width * entry.height * 4 ≤
        dataOffset + (snapshotRects bitmap rects dataOffset).2.length := by
  have rect := List.mem_map_of_mem (f := entryRect) member
  rw [snapshot_rects_map] at rect
  have size := solid _ rect
  simp only [Rect.Solid, entryRect] at size
  have width : 0 < entry.width := by omega
  have height : 0 < entry.height := by omega
  exact ⟨width, height, snapshot_rects_holds bitmap rects dataOffset member width height⟩

theorem snapshot_rects_length (bitmap : Bitmap) (rects : List Rect) (dataOffset : Int) :
    (snapshotRects bitmap rects dataOffset).1.length = rects.length := by
  rw [← List.length_map (f := entryRect), snapshot_rects_map]

theorem planar_job_scheduled {R : Type} (self : Mm R) (encoder : Encoder) (bitmap : Bitmap)
    {rects : List Rect} (surfaceId x y : Int)
    (solid : rects ≠ [] ∧ ∀ rect ∈ rects, rect.Solid) :
    Scheduled (planarJob self encoder bitmap rects surfaceId x y) where
  some_rect := by
    intro none_left
    have count := snapshot_rects_length bitmap rects 0
    rw [show (snapshotRects bitmap rects 0).1 = [] from none_left] at count
    exact solid.1 (List.length_eq_zero_iff.mp count.symm)
  solid rect member := by
    obtain ⟨width, height, -⟩ := snapshot_rects_bounds bitmap 0 solid.2 member
    exact ⟨width, height⟩
  ready rect member := by
    obtain ⟨-, -, lower, upper⟩ := snapshot_rects_bounds bitmap 0 solid.2 member
    refine ⟨lower, ?_⟩
    rwa [Int.zero_add] at upper

/-! ## Tiles of a job -/

/-- The message of a completed tile. -/
def tileWire (done : EncDone) : GfxPdu :=
  .wireToSurface1 done.enc.surfaceId codecidPlanar pixelFormatXrgb8888
    { left := done.x, top := done.y, right := done.x + done.cx, bottom := done.y + done.cy }
    done.compPadData

/-- The completion of a tile; `firstTile` only says whether it continues the frame. -/
structure IsTile (job : EncVncPlanar) (tile : Bool → EncDone) : Prop where
  enc : ∀ firstTile, (tile firstTile).enc = job
  frameId : ∀ firstTile, (tile firstTile).frameId = job.frameId
  continuation : ∀ firstTile, (tile firstTile).continuation = !firstTile
  last : ∀ firstTile, (tile firstTile).last = (tile true).last
  wire : ∀ firstTile, tileWire (tile firstTile) = tileWire (tile true)
  data : ∀ firstTile, (tile firstTile).compPadData ≠ []

theorem compress_snapshot_nonempty (job : EncVncPlanar) (rect : EncVncPlanarRect)
    {yoffset bheight xoffset bwidth : Int} (height : 0 < bheight)
    (area : bwidth.toNat * bheight.toNat ≤ 4096) :
    (compressSnapshotTile job rect yoffset bheight xoffset bwidth).2 ≠ [] := by
  obtain ⟨bytes, compressed, decoded⟩ := @compress_tile_rows bwidth.toNat bheight.toNat
    (by omega) area (snapshotData job.pixels)
    (rect.dataOffset + (yoffset * rect.width + xoffset) * 4) (rect.width * 4)
  rw [compressSnapshotTile, compressed]
  rintro rfl
  simp [decodeBitmap] at decoded

theorem mem_rect_plan {job : EncVncPlanar} {item : EncVncPlanarRect × Nat} {tile : Bool → EncDone}
    (member : tile ∈ rectPlan job item) : IsTile job tile := by
  unfold rectPlan at member
  split at member
  · exact absurd member List.not_mem_nil
  · obtain ⟨yoffset, rowMember, inRow⟩ := List.mem_flatMap.mp member
    obtain ⟨xoffset, columnMember, rfl⟩ := List.mem_map.mp inRow
    obtain ⟨width, height, area⟩ := @tile_size_bounds item.1.width.toNat item.1.height.toNat
      (by omega) (by omega)
    have row := for_range_bounds (by omega) rowMember
    have column := for_range_bounds (by omega) columnMember
    refine ⟨fun _ => rfl, fun _ => rfl, fun _ => rfl, fun _ => rfl, fun _ => rfl, fun _ => ?_⟩
    apply compress_snapshot_nonempty job item.1 (by omega)
    apply Nat.le_trans _ area
    apply Nat.mul_le_mul <;> omega

theorem job_plan_tiles {job : EncVncPlanar} : ∀ tile ∈ jobPlan job, IsTile job tile := by
  intro tile member
  obtain ⟨item, -, inRect⟩ := List.mem_flatMap.mp member
  exact mem_rect_plan inRect

theorem last_of_index {Item : Type} {items : List Item} {item : Item × Nat}
    (member : item ∈ items.zipIdx) (final : item.2 = items.length - 1) :
    items.getLast? = some item.1 := by
  rw [List.getLast?_eq_getElem?, ← final]
  exact List.mem_zipIdx_iff_getElem?.mp member

/-- Only the tile in the lower right corner of the last rectangle is the last one. -/
theorem job_plan_final_of {job : EncVncPlanar} {rect : EncVncPlanarRect}
    (last_rect : job.rects.getLast? = some rect) (width : 0 < rect.width)
    (height : 0 < rect.height) :
    OnlyFinal (fun tile => (tile true).last = true) (jobPlan job) := by
  have some_rect : job.rects ≠ [] := by
    rintro none_left
    simp [none_left] at last_rect
  apply only_final_flat_map (zip_idx_final some_rect)
  · intro item itemMember final
    obtain rfl : rect = item.1 :=
      Option.some.inj (last_rect.symm.trans (last_of_index itemMember final))
    obtain ⟨tileWidth, tileHeight, -⟩ := @tile_size_bounds item.1.width.toNat item.1.height.toNat
      (by omega) (by omega)
    unfold rectPlan
    rw [if_neg (by omega)]
    apply only_final_flat_map (for_range_final (by omega) height)
    · intro yoffset _ last_row
      apply only_final_map
      have columns := @for_range_final 0 item.1.width
        (tileSize item.1.width.toNat item.1.height.toNat).1 (by omega) width
      have same : (fun xoffset => (tilePlan job item.2 item.1
          (tileSize item.1.width.toNat item.1.height.toNat).1 yoffset
          (min (item.1.height - yoffset) (tileSize item.1.width.toNat item.1.height.toNat).2)
          xoffset true).last = true) = fun xoffset => item.1.width ≤ xoffset +
          (tileSize item.1.width.toNat item.1.height.toNat).1 := by
        funext xoffset
        simp only [tilePlan, tileDone, decide_eq_true_eq, eq_iff_iff]
        omega
      rw [same]
      exact columns
    · intro yoffset _ other_row tile member
      obtain ⟨xoffset, -, rfl⟩ := List.mem_map.mp member
      simp only [tilePlan, tileDone, decide_eq_true_eq]
      omega
  · intro item _ other_rect tile member
    unfold rectPlan at member
    split at member
    · exact absurd member List.not_mem_nil
    · obtain ⟨yoffset, -, inRow⟩ := List.mem_flatMap.mp member
      obtain ⟨xoffset, -, rfl⟩ := List.mem_map.mp inRow
      simp only [tilePlan, tileDone, decide_eq_true_eq]
      tauto

/-- If the last rectangle is empty no tile is the last one. -/
theorem job_plan_unmarked {job : EncVncPlanar} {rect : EncVncPlanarRect}
    (last_rect : job.rects.getLast? = some rect) (empty : rect.width < 1 ∨ rect.height < 1) :
    ∀ tile ∈ jobPlan job, (tile true).last = false := by
  intro tile member
  obtain ⟨item, itemMember, inRect⟩ := List.mem_flatMap.mp member
  unfold rectPlan at inRect
  split at inRect
  · exact absurd inRect List.not_mem_nil
  · rename_i solid
    have other_rect : item.2 ≠ job.rects.length - 1 := by
      intro final
      obtain rfl : rect = item.1 :=
        Option.some.inj (last_rect.symm.trans (last_of_index itemMember final))
      exact solid empty
    obtain ⟨yoffset, -, inRow⟩ := List.mem_flatMap.mp inRect
    obtain ⟨xoffset, -, rfl⟩ := List.mem_map.mp inRow
    simp only [tilePlan, tileDone, decide_eq_false_iff_not]
    tauto

theorem job_plan_final {job : EncVncPlanar} (scheduled : Scheduled job) :
    OnlyFinal (fun tile => (tile true).last = true) (jobPlan job) := by
  have last := List.getLast?_eq_some_getLast scheduled.some_rect
  obtain ⟨width, height⟩ := scheduled.solid _ (List.getLast_mem scheduled.some_rect)
  exact job_plan_final_of last width height

/-! ## Completions of a job -/

/-- The completions of one job, in order. -/
structure Delivery (job : EncVncPlanar) (dones : List EncDone) : Prop where
  own : ∀ done ∈ dones, done.enc = job ∧ done.frameId = job.frameId
  continuation : ∀ handled done rest, dones = handled ++ done :: rest →
    done.continuation = !handled.isEmpty
  last : ∀ handled done rest, dones = handled ++ done :: rest → done.last = true → rest = []
  data : ∀ done ∈ dones, done.last = false → done.compPadData ≠ []

theorem mem_mark_dones {firstTile : Bool} {plan : List (Bool → EncDone)} {done : EncDone}
    (member : done ∈ markDones firstTile plan) : ∃ tile ∈ plan, ∃ first, done = tile first := by
  induction plan generalizing firstTile with
  | nil => exact absurd member List.not_mem_nil
  | cons tile rest ih =>
      rcases List.mem_cons.mp member with rfl | later
      · exact ⟨tile, List.mem_cons_self .., firstTile, rfl⟩
      · obtain ⟨other, otherMember, first, same⟩ := ih later
        exact ⟨other, List.mem_cons_of_mem tile otherMember, first, same⟩

theorem mark_dones_split {firstTile : Bool} {plan : List (Bool → EncDone)}
    {handled rest : List EncDone} {done : EncDone}
    (same : markDones firstTile plan = handled ++ done :: rest) :
    ∃ tile ∈ plan, done = tile (firstTile && handled.isEmpty) := by
  induction plan generalizing firstTile handled with
  | nil => simp [markDones] at same
  | cons tile plan ih =>
      cases handled with
      | nil =>
          obtain ⟨rfl, -⟩ := List.cons.inj same
          exact ⟨tile, List.mem_cons_self .., by simp⟩
      | cons first handled =>
          obtain ⟨-, later⟩ := List.cons.inj same
          obtain ⟨other, member, found⟩ := ih later
          exact ⟨other, List.mem_cons_of_mem tile member, by simpa using found⟩

theorem mark_dones_length (firstTile : Bool) (plan : List (Bool → EncDone)) :
    (markDones firstTile plan).length = plan.length := by
  induction plan generalizing firstTile with
  | nil => rfl
  | cons tile plan ih => rw [markDones, List.length_cons, ih, List.length_cons]

theorem mark_dones_final {firstTile : Bool} {plan : List (Bool → EncDone)}
    (same : ∀ tile ∈ plan, ∀ first, (tile first).last = (tile true).last)
    (only : OnlyFinal (fun tile => (tile true).last = true) plan) :
    OnlyFinal (fun done => done.last = true) (markDones firstTile plan) := by
  obtain ⟨before, final, rfl, last, others⟩ := only
  refine ⟨markDones firstTile before, final (firstTile && before.isEmpty), ?_, ?_, ?_⟩
  · rw [mark_dones_append]
    rfl
  · exact (same final (by simp) _).trans last
  · intro done member
    obtain ⟨tile, tileMember, first, rfl⟩ := mem_mark_dones member
    simp only [same tile (by simp [tileMember]) first]
    exact others tile tileMember

theorem whole_final {job : EncVncPlanar} (scheduled : Scheduled job) :
    OnlyFinal (fun done => done.last = true) (markDones true (jobPlan job)) :=
  mark_dones_final (fun tile member => (job_plan_tiles tile member).last) (job_plan_final scheduled)

theorem whole_continuation {job : EncVncPlanar} {handled rest : List EncDone} {done : EncDone}
    (same : markDones true (jobPlan job) = handled ++ done :: rest) :
    done.continuation = !handled.isEmpty := by
  obtain ⟨tile, tileMember, rfl⟩ := mark_dones_split same
  rw [(job_plan_tiles tile tileMember).continuation, Bool.true_and]

/-- A whole job is delivered tile by tile. -/
theorem whole_delivery {job : EncVncPlanar} (scheduled : Scheduled job) :
    Delivery job (markDones true (jobPlan job)) where
  own done member := by
    obtain ⟨tile, tileMember, first, rfl⟩ := mem_mark_dones member
    have shape := job_plan_tiles tile tileMember
    exact ⟨shape.enc first, shape.frameId first⟩
  continuation handled done rest same := whole_continuation same
  last handled done rest same here := by
    have final := whole_final scheduled
    rw [same] at final
    exact only_final_split final here
  data done member _ := by
    obtain ⟨tile, tileMember, first, rfl⟩ := mem_mark_dones member
    exact (job_plan_tiles tile tileMember).data first

/-- Where a part of the tiles is left out, none of those before was the last one. -/
theorem part_not_last {job : EncVncPlanar} (some_rect : job.rects ≠ []) {count : Nat}
    (part : count < (jobPlan job).length) {done : EncDone}
    (member : done ∈ markDones true ((jobPlan job).take count)) : done.last = false := by
  obtain ⟨tile, tileMember, first, rfl⟩ := mem_mark_dones member
  have shape := job_plan_tiles tile (List.mem_of_mem_take tileMember)
  have last_rect := List.getLast?_eq_some_getLast some_rect
  rw [shape.last]
  by_cases empty : (job.rects.getLast some_rect).width < 1 ∨ (job.rects.getLast some_rect).height < 1
  · exact job_plan_unmarked last_rect empty tile (List.mem_of_mem_take tileMember)
  · obtain ⟨before, final, same, -, others⟩ := job_plan_final_of last_rect (by omega) (by omega)
    rw [same, List.length_append, List.length_singleton] at part
    rw [same, List.take_append_of_le_length (by omega)] at tileMember
    simpa using others tile (List.mem_of_mem_take tileMember)

theorem final_done_continuation {job : EncVncPlanar} {count : Nat}
    (part : count < (jobPlan job).length) :
    (finalDone job (decide (0 < count))).continuation =
      !(markDones true ((jobPlan job).take count)).isEmpty := by
  have length := mark_dones_length true ((jobPlan job).take count)
  rw [List.length_take, Nat.min_eq_left (by omega)] at length
  cases count with
  | zero => simp [finalDone, markDones]
  | succ count =>
      rw [List.isEmpty_eq_false_iff.mpr (by rintro none_left; simp [none_left] at length)]
      simp [finalDone]

theorem broken_final {job : EncVncPlanar} (some_rect : job.rects ≠ []) {count : Nat}
    (part : count < (jobPlan job).length) :
    OnlyFinal (fun done => done.last = true) (markDones true ((jobPlan job).take count) ++
      [finalDone job (decide (0 < count))]) := by
  refine ⟨_, _, rfl, rfl, ?_⟩
  intro done member
  simp [part_not_last some_rect part member]

theorem broken_continuation {job : EncVncPlanar} {count : Nat} (part : count < (jobPlan job).length)
    {handled rest : List EncDone} {done : EncDone}
    (same : markDones true ((jobPlan job).take count) ++ [finalDone job (decide (0 < count))] =
      handled ++ done :: rest) : done.continuation = !handled.isEmpty := by
  rcases List.append_eq_append_iff.mp same with ⟨more, rfl, final⟩ | ⟨more, tilesSame, later⟩
  · cases more with
    | nil =>
        obtain ⟨rfl, -⟩ := List.cons.inj final
        rw [List.append_nil]
        exact final_done_continuation part
    | cons other more =>
        have length := congrArg List.length final
        simp at length
  · cases more with
    | nil =>
        rw [List.append_nil] at tilesSame
        obtain ⟨rfl, -⟩ := List.cons.inj later
        rw [← tilesSame]
        exact final_done_continuation part
    | cons other more =>
        obtain ⟨rfl, -⟩ := List.cons.inj later
        obtain ⟨tile, tileMember, rfl⟩ := mark_dones_split tilesSame
        rw [(job_plan_tiles tile (List.mem_of_mem_take tileMember)).continuation, Bool.true_and]

/-- A job that broke off ends with a completion without data. -/
theorem broken_delivery {job : EncVncPlanar} (some_rect : job.rects ≠ []) {count : Nat}
    (part : count < (jobPlan job).length) :
    Delivery job (markDones true ((jobPlan job).take count) ++
      [finalDone job (decide (0 < count))]) := by
  have tiles : ∀ tile ∈ (jobPlan job).take count, IsTile job tile := fun tile member =>
    job_plan_tiles tile (List.mem_of_mem_take member)
  constructor
  · intro done member
    rcases List.mem_append.mp member with earlier | final
    · obtain ⟨tile, tileMember, first, rfl⟩ := mem_mark_dones earlier
      exact ⟨(tiles tile tileMember).enc first, (tiles tile tileMember).frameId first⟩
    · rw [List.mem_singleton.mp final]
      exact ⟨rfl, rfl⟩
  · exact fun handled done rest same => broken_continuation part same
  · intro handled done rest same here
    have final := broken_final some_rect part
    rw [same] at final
    exact only_final_split final here
  · intro done member not_last
    rcases List.mem_append.mp member with earlier | final
    · obtain ⟨tile, tileMember, first, rfl⟩ := mem_mark_dones earlier
      exact (tiles tile tileMember).data first
    · rw [List.mem_singleton.mp final] at not_last
      simp [finalDone] at not_last

theorem delivery_prefix {job : EncVncPlanar} {dones more : List EncDone}
    (delivery : Delivery job (dones ++ more)) : Delivery job dones where
  own done member := delivery.own done (List.mem_append_left more member)
  continuation handled done rest same :=
    delivery.continuation handled done (rest ++ more) (by simp [same])
  last handled done rest same here := by
    have none_left := delivery.last handled done (rest ++ more) (by simp [same]) here
    exact (List.append_eq_nil_iff.mp none_left).1
  data done member := delivery.data done (List.mem_append_left more member)

theorem worker_completed {job : EncVncPlanar} (scheduled : Scheduled job) (allocs : List Bool) :
    Completed job allocs (completions (processEncVncPlanar job allocs)) :=
  worker_completions (ready_holds scheduled.ready) (only_final_nonempty (job_plan_final scheduled)) allocs

theorem worker_delivery {job : EncVncPlanar} (scheduled : Scheduled job) (allocs : List Bool) :
    Delivery job (completions (processEncVncPlanar job allocs)) := by
  have completed := worker_completed scheduled allocs
  generalize completions (processEncVncPlanar job allocs) = dones at completed ⊢
  cases completed with
  | whole => exact whole_delivery scheduled
  | broken count _ part => exact broken_delivery scheduled.some_rect part
  | lost count _ part => exact delivery_prefix (broken_delivery scheduled.some_rect part)

theorem worker_final {job : EncVncPlanar} (scheduled : Scheduled job) {allocs : List Bool}
    (recovers : AllocsRecover allocs) :
    OnlyFinal (fun done => done.last = true) (completions (processEncVncPlanar job allocs)) := by
  have completed := worker_completed scheduled allocs
  generalize completions (processEncVncPlanar job allocs) = dones at completed ⊢
  cases completed with
  | whole => exact whole_final scheduled
  | broken count _ part => exact broken_final scheduled.some_rect part
  | lost count lost => exact absurd recovers lost

/-- Without a failed allocation the whole job is completed. -/
theorem holds_whole {job : EncVncPlanar} (holds : HoldsSnapshots job) (some_tile : jobPlan job ≠ []) :
    completions (processEncVncPlanar job []) = markDones true (jobPlan job) := by
  have completed := worker_completions holds some_tile []
  generalize completions (processEncVncPlanar job []) = dones at completed ⊢
  cases completed with
  | whole => rfl
  | broken count some_alloc => exact absurd rfl some_alloc
  | lost count lost => exact absurd trivial lost

theorem worker_whole {job : EncVncPlanar} (scheduled : Scheduled job) :
    completions (processEncVncPlanar job []) = markDones true (jobPlan job) :=
  holds_whole (ready_holds scheduled.ready) (only_final_nonempty (job_plan_final scheduled))

end XrdpConsole.JobCompletions
