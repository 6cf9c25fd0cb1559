import XrdpConsole.PlanarSend

/-!
# The encoder thread and its completions

`process_enc_vnc_planar` and the loop of `proc_enc_msg` (`xrdp/xrdp_encoder.c`)
as the actions other threads can see, in order: each read of one of the blocks
of the job, loop conditions included, and each completion that is queued. Then
what the main thread does with a completion (`xrdp/xrdp_mm.c`).

A job is not written to once it is queued, so what the thread reads of it, and
with that all its actions, are fixed when it takes the job.
-/

namespace XrdpConsole.PlanarWorker

open XrdpConsole.Library
open XrdpConsole.VncState
open XrdpConsole.MmState
open XrdpConsole.PlanarSend

set_option autoImplicit false

variable {R : Type}

/-- The local variables of `process_enc_vnc_planar` that last over its loops, and
what it has done. `allocs` holds the outcomes of its allocations to come. -/
structure WorkerRun where
  allocs : List Bool
  firstTile : Bool
  emittedCompletion : Bool
  error : Bool
  actions : List WorkerAction
  deriving DecidableEq, Repr

namespace WorkerRun

def start (allocs : List Bool) : WorkerRun where
  allocs := allocs
  firstTile := true
  emittedCompletion := false
  error := false
  actions := []

def gNew (self : WorkerRun) : Bool × WorkerRun :=
  (self.allocs.headD true, { self with allocs := self.allocs.tail })

def reads (self : WorkerRun) (address : Nat) (blocks : List JobBlock) : WorkerRun :=
  { self with actions := self.actions ++ blocks.map (.read address) }

def fail (self : WorkerRun) : WorkerRun := { self with error := true }

def emit (self : WorkerRun) (done : EncDone) : WorkerRun :=
  { self with
    actions := self.actions ++ [.complete done]
    emittedCompletion := true
    firstTile := false }

end WorkerRun

def snapshotData (pixels : List Byte) (offset : Int) : Byte := pixels.getD offset.toNat 0

def tileDone (job : EncVncPlanar) (rectIndex : Nat) (rect : EncVncPlanarRect)
    (yoffset bheight xoffset bwidth : Int) (firstTile : Bool) (compData : List Byte) : EncDone where
  compPadData := compData
  enc := job
  last := rectIndex = job.rects.length - 1 ∧ yoffset + bheight ≥ rect.height ∧
    xoffset + bwidth ≥ rect.width
  continuation := !firstTile
  x := rect.left + xoffset - job.originX
  y := rect.top + yoffset - job.originY
  cx := bwidth
  cy := bheight
  frameId := job.frameId

/-- The tile as `process_enc_vnc_planar` copies it from the snapshot. -/
def compressSnapshotTile (job : EncVncPlanar) (rect : EncVncPlanarRect)
    (yoffset bheight xoffset bwidth : Int) : Nat × List Byte :=
  compressTile
    (sourceRows (snapshotData job.pixels)
      (rect.dataOffset + (yoffset * rect.width + xoffset) * 4) (rect.width * 4)
      (bwidth.toNat * 4) bheight.toNat)
    bwidth.toNat bheight.toNat

/-- The body of the loop over `xoffset`, with its condition before it. -/
def processTile (job : EncVncPlanar) (rectIndex : Nat) (rect : EncVncPlanarRect)
    (tileWidth yoffset bheight : Int) (run : WorkerRun) (xoffset : Int) : WorkerRun :=
  if run.error then
    run
  else
    let bwidth := min (rect.width - xoffset) tileWidth
    let run := run.reads job.address [.rects, .rects, .enc, .rects, .pixels]
    let compressed := compressSnapshotTile job rect yoffset bheight xoffset bwidth
    if compressed.1 ≠ bheight.toNat then
      run.fail
    else
      let compData := run.gNew
      let encDone := compData.2.gNew
      if !compData.1 || !encDone.1 then
        encDone.2.fail
      else
        let run := encDone.2.reads job.address [.rects, .enc]
        run.emit (tileDone job rectIndex rect yoffset bheight xoffset bwidth run.firstTile
          compressed.2)

def processTileRow (job : EncVncPlanar) (rectIndex : Nat) (rect : EncVncPlanarRect)
    (tileWidth tileHeight : Int) (run : WorkerRun) (yoffset : Int) : WorkerRun :=
  if run.error then
    run
  else
    let bheight := min (rect.height - yoffset) tileHeight
    let run := run.reads job.address [.rects, .rects]
    let run := (forRange 0 rect.width tileWidth).foldl
      (processTile job rectIndex rect tileWidth yoffset bheight) run
    if run.error then run else run.reads job.address [.rects]

/-- The body of the loop over the rectangles, with its condition. -/
def processRect (job : EncVncPlanar) (run : WorkerRun) (item : EncVncPlanarRect × Nat) :
    WorkerRun :=
  if run.error then
    run
  else
    let rect := item.1
    let run := run.reads job.address [.enc, .enc, .rects]
    if rect.width < 1 ∨ rect.height < 1 then
      run
    else if rect.dataOffset < 0 ∨
        rect.dataOffset + rect.width * rect.height * 4 > job.pixelsBytes then
      (run.reads job.address [.rects, .enc]).fail
    else
      let run := run.reads job.address [.rects, .enc, .rects]
      let tile := tileSize rect.width.toNat rect.height.toNat
      let run := (forRange 0 rect.height tile.2).foldl
        (processTileRow job item.2 rect tile.1 tile.2) run
      -- the condition of the loop over `yoffset` reads the height before it tests `error`
      let run := run.reads job.address [.rects]
      if run.error then run.reads job.address [.enc] else run

def processRects (job : EncVncPlanar) (run : WorkerRun) : WorkerRun :=
  let run := job.rects.zipIdx.foldl (processRect job) run
  if run.error then run else run.reads job.address [.enc]

/-- The five allocations of the scratch buffers, of which all are tried that do
not need an earlier one. -/
def newTileBuffers (run : WorkerRun) : WorkerRun :=
  let tilePixels := run.gNew
  let compS := tilePixels.2.gNew
  let tempS := compS.2.gNew
  if !tilePixels.1 || !compS.1 || !tempS.1 then
    tempS.2.fail
  else
    let compData := tempS.2.gNew
    let tempData := compData.2.gNew
    if !compData.1 || !tempData.1 then tempData.2.fail else tempData.2

/-- The completion sent where no tile carries the last one. -/
def finalDone (job : EncVncPlanar) (emittedCompletion : Bool) : EncDone where
  compPadData := []
  enc := job
  last := true
  continuation := emittedCompletion
  x := 0
  y := 0
  cx := 0
  cy := 0
  frameId := job.frameId

/-- From `finish:` on. -/
def finishJob (job : EncVncPlanar) (run : WorkerRun) : WorkerRun :=
  if run.error || !run.emittedCompletion then
    let encDone := run.gNew
    if encDone.1 then
      let run := encDone.2.reads job.address [.enc]
      { run with actions := run.actions ++ [.complete (finalDone job run.emittedCompletion)] }
    else
      encDone.2
  else
    run

def profileJob (job : EncVncPlanar) (run : WorkerRun) : WorkerRun :=
  run.reads job.address (if job.profile then [.enc, .enc] else [.enc])

def processEncVncPlanar (job : EncVncPlanar) (allocs : List Bool) : List WorkerAction :=
  let run := newTileBuffers ((WorkerRun.start allocs).reads job.address [.enc])
  let run := if run.error then run else processRects job run
  (profileJob job (finishJob job run)).actions

/-! ## The thread -/

def procEncMsg (encoder : Encoder) (allocs : List Bool) : Encoder :=
  match encoder.worker, encoder.fifoToProc with
  | [], job :: rest =>
      { encoder with fifoToProc := rest, worker := processEncVncPlanar job allocs }
  | _, _ => encoder

def workerStep (encoder : Encoder) : Encoder :=
  match encoder.worker with
  | [] => encoder
  | .read _ _ :: rest => { encoder with worker := rest }
  | .complete done :: rest =>
      { encoder with worker := rest, fifoProcessed := encoder.fifoProcessed ++ [done] }

/-! ## Completions on the main thread -/

def donePdus (encDone : EncDone) : List GfxPdu :=
  (if !encDone.continuation ∧ 0 < encDone.compPadData.length then
    [.startFrame encDone.frameId 0] else []) ++
  if 0 < encDone.compPadData.length then
    [.wireToSurface1 encDone.enc.surfaceId codecidPlanar pixelFormatXrgb8888
      { left := encDone.x, top := encDone.y, right := encDone.x + encDone.cx,
        bottom := encDone.y + encDone.cy } encDone.compPadData]
  else []

def releaseJob (self : Mm R) (job : EncVncPlanar) : Mm R :=
  { self with
    vncGfxAsyncPending := false
    freed := self.freed ++ [job.address] }

/-- The end of the frame of a last completion, and what goes with it. -/
def finishFrame (self : Mm R) (encDone : EncDone) : Mm R :=
  if encDone.continuation ∨ 0 < encDone.compPadData.length then
    let ended := xrdpEgfxSend self (.endFrame encDone.frameId)
    if ended.1 && ended.2.vncGfxBackpressure then
      { ended.2 with
        encoder := ended.2.encoder.map ({ · with frameIdServer := encDone.frameId }) }
    else
      ended.2
  else
    self

def xrdpMmProcessVncPlanarDone (self : Mm R) (encDone : EncDone) : Mm R :=
  let self := sendEach self (donePdus encDone)
  if encDone.last then
    releaseJob (finishFrame self encDone) encDone.enc
  else
    self

/-- One round of `xrdp_mm_process_enc_done`. -/
def xrdpMmProcessEncDone (self : Mm R) : Mm R :=
  match self.encoder with
  | none => self
  | some encoder =>
      match encoder.fifoProcessed with
      | [] => self
      | encDone :: rest =>
          xrdpMmProcessVncPlanarDone
            { self with encoder := some { encoder with fifoProcessed := rest } } encDone

end XrdpConsole.PlanarWorker
