import XrdpConsole.Library.PixelRect

/-!
# Regions of pixman

`common/pixman-region.c` as `common/pixman-region16.c` compiles it, in the part that
`xrdp/xrdp_region.c` calls: regions start empty or as one rectangle, and each operation has its
first source as destination and a second source that is another object. Memory is taken to be
available, so that no region is ever the broken one.
-/

namespace XrdpConsole.PixmanRegion

open XrdpConsole.Library

set_option autoImplicit false

@[ext] structure Box where
  x1 : Int
  y1 : Int
  x2 : Int
  y2 : Int
  deriving DecidableEq, Repr

/-- `data` is `none` for the null pointer, with which the extents are the only box. -/
structure PixRegion where
  extents : Box
  data : Option (List Box)
  deriving DecidableEq, Repr

namespace PixRegion

/-- `PIXREGION_NIL` -/
def isNil (reg : PixRegion) : Bool := reg.data == some []

/-- `PIXREGION_RECTS` -/
def rects (reg : PixRegion) : List Box := reg.data.getD [reg.extents]

/-- `PIXREGION_NUMRECTS` -/
def numRects (reg : PixRegion) : Nat := reg.rects.length

end PixRegion

namespace Box

def toRect (box : Box) : Rect where
  left := box.x1
  top := box.y1
  right := box.x2
  bottom := box.y2

def good (rect : Box) : Bool := rect.x1 < rect.x2 && rect.y1 < rect.y2

def extentCheck (r1 r2 : Box) : Bool :=
  !(r1.x2 ≤ r2.x1 || r1.x1 ≥ r2.x2 || r1.y2 ≤ r2.y1 || r1.y1 ≥ r2.y2)

def inBox (r : Box) (x y : Int) : Bool := r.x2 > x && r.x1 ≤ x && r.y2 > y && r.y1 ≤ y

def subsumes (r1 r2 : Box) : Bool :=
  r1.x1 ≤ r2.x1 && r1.x2 ≥ r2.x2 && r1.y1 ≤ r2.y1 && r1.y2 ≥ r2.y2

end Box

/-! ## Making a region -/

def emptyBox : Box where
  x1 := 0
  y1 := 0
  x2 := 0
  y2 := 0

def pixmanRegionInit : PixRegion where
  extents := emptyBox
  data := some []

def toShort (value : Int) : Int := value.bmod 65536

def unsignedInt (value : Int) : Int := value % 4294967296

/-- The check of `GOOD_RECT` on extents that are filled in, and what follows it. -/
def initExtents (extents : Box) : PixRegion :=
  if extents.good then { extents := extents, data := none } else pixmanRegionInit

/-- `width` and `height` are `unsigned int`. -/
def pixmanRegionInitRect (x y width height : Int) : PixRegion :=
  initExtents {
    x1 := toShort x
    y1 := toShort y
    x2 := toShort (unsignedInt (x + width))
    y2 := toShort (unsignedInt (y + height)) }

/-! ## The generic region operator -/

structure NewRegion where
  rects : List Box
  prevBand : Nat
  deriving DecidableEq, Repr

def sameColumns (prev cur : List Box) : Bool :=
  prev.map Box.x1 == cur.map Box.x1 && prev.map Box.x2 == cur.map Box.x2

def pixmanCoalesce (rects : List Box) (prevStart curStart : Nat) : NewRegion :=
  let numRects := curStart - prevStart
  let prevBoxes := (rects.drop prevStart).take numRects
  let curBoxes := (rects.drop curStart).take numRects
  match prevBoxes, curBoxes with
  | prevBox :: _, curBox :: _ =>
      if prevBox.y2 ≠ curBox.y1 then { rects := rects, prevBand := curStart }
      else if sameColumns prevBoxes curBoxes then
        { rects := rects.take prevStart ++ prevBoxes.map fun box => { box with y2 := curBox.y2 }
          prevBand := prevStart }
      else { rects := rects, prevBand := curStart }
  | _, _ => { rects := rects, prevBand := curStart }

def coalesce (rects : List Box) (prevBand curBand : Nat) : NewRegion :=
  if curBand - prevBand = rects.length - curBand then pixmanCoalesce rects prevBand curBand
  else { rects := rects, prevBand := curBand }

def addBand (region : NewRegion) (boxes : List Box) : NewRegion :=
  coalesce (region.rects ++ boxes) region.prevBand region.rects.length

def appendNonO (r : List Box) (y1 y2 : Int) : List Box :=
  r.map fun box => { x1 := box.x1, y1 := y1, x2 := box.x2, y2 := y2 }

/-- `FIND_BAND`: the boxes of the first band, and those after them. -/
def findBand : List Box → List Box × List Box
  | [] => ([], [])
  | box :: rest =>
      (box :: rest.takeWhile fun next => next.y1 = box.y1,
        rest.dropWhile fun next => next.y1 = box.y1)

structure OpState where
  r1 : List Box
  r2 : List Box
  region : NewRegion
  ybot : Int
  deriving DecidableEq, Repr

/-- The part of a band above the next band of the other region. -/
def appendAlone (append : Bool) (region : NewRegion) (band : List Box) (y1 y2 otherY1 ybot : Int) :
    NewRegion :=
  if append then
    let top := max y1 ybot
    let bot := min y2 otherY1
    if top ≠ bot then addBand region (appendNonO band top bot) else region
  else region

/-- The band that does not intersect, if any, with the first boxes of both bands. -/
def aloneBands (appendNon1 appendNon2 : Bool) (region : NewRegion) (r1 r2 : List Box)
    (box1 box2 : Box) (ybot : Int) : NewRegion :=
  if box1.y1 < box2.y1 then
    appendAlone appendNon1 region r1 box1.y1 box1.y2 box2.y1 ybot
  else if box2.y1 < box1.y1 then
    appendAlone appendNon2 region r2 box2.y1 box2.y2 box1.y1 ybot
  else region

/-- What an `overlap_func` adds for the bands `r1` and `r2` between `y1` and `y2`. -/
abbrev OverlapProc := List Box → List Box → Int → Int → List Box

def overlapBands (overlapFunc : OverlapProc) (region : NewRegion) (r1 r2 : List Box)
    (ytop ybot : Int) : NewRegion :=
  if ybot > ytop then addBand region (overlapFunc r1 r2 ytop ybot) else region

def opStep (overlapFunc : OverlapProc) (appendNon1 appendNon2 : Bool) (s : OpState) : OpState :=
  match s.r1, s.r2 with
  | box1 :: _, box2 :: _ =>
      let band1 := findBand s.r1
      let band2 := findBand s.r2
      let ytop := max box1.y1 box2.y1
      let ybot := min box1.y2 box2.y2
      let alone := aloneBands appendNon1 appendNon2 s.region band1.1 band2.1 box1 box2 s.ybot
      { r1 := if box1.y2 = ybot then band1.2 else s.r1
        r2 := if box2.y2 = ybot then band2.2 else s.r2
        region := overlapBands overlapFunc alone band1.1 band2.1 ytop ybot
        ybot := ybot }
  | _, _ => s

/-- Each turn drops a band, so that the number of boxes bounds the turns. -/
def opLoop (overlapFunc : OverlapProc) (appendNon1 appendNon2 : Bool) : Nat → OpState → OpState
  | 0, s => s
  | fuel + 1, s =>
      let next := opStep overlapFunc appendNon1 appendNon2 s
      if next.r1 ≠ [] ∧ next.r2 ≠ [] then opLoop overlapFunc appendNon1 appendNon2 fuel next
      else next

/-- The boxes a source has left: its first band may become part of the last one. -/
def appendRest (region : NewRegion) (r : List Box) (ybot : Int) : List Box :=
  match r with
  | [] => region.rects
  | box :: _ =>
      let band := findBand r
      (addBand region (appendNonO band.1 (max box.y1 ybot) box.y2)).rects ++ band.2

def opFinish (appendNon1 appendNon2 : Bool) (s : OpState) : List Box :=
  if s.r1 ≠ [] ∧ appendNon1 then appendRest s.region s.r1 s.ybot
  else if s.r2 ≠ [] ∧ appendNon2 then appendRest s.region s.r2 s.ybot
  else s.region.rects

def startOp (r1 r2 : List Box) : OpState where
  r1 := r1
  r2 := r2
  region := { rects := [], prevBand := 0 }
  ybot :=
    match r1, r2 with
    | box1 :: _, box2 :: _ => min box1.y1 box2.y1
    | _, _ => 0

def opBoxes (overlapFunc : OverlapProc) (appendNon1 appendNon2 : Bool) (r1 r2 : List Box) :
    List Box :=
  opFinish appendNon1 appendNon2
    (opLoop overlapFunc appendNon1 appendNon2 (r1.length + r2.length) (startOp r1 r2))

/-- The destination with the boxes of the result. One box is kept as the extents only. -/
def keepBoxes (extents : Box) : List Box → PixRegion
  | [] => { extents := extents, data := some [] }
  | [box] => { extents := box, data := none }
  | box :: next :: rest => { extents := extents, data := some (box :: next :: rest) }

/-- `pixman_op` with `reg1` as destination. -/
def pixmanOp (overlapFunc : OverlapProc) (appendNon1 appendNon2 : Bool) (reg1 reg2 : PixRegion) :
    PixRegion :=
  keepBoxes reg1.extents (opBoxes overlapFunc appendNon1 appendNon2 reg1.rects reg2.rects)

def setExtentsStep (extents box : Box) : Box :=
  { extents with
    x1 := if box.x1 < extents.x1 then box.x1 else extents.x1
    x2 := if box.x2 > extents.x2 then box.x2 else extents.x2 }

def pixmanSetExtents (region : PixRegion) : PixRegion :=
  match region.data with
  | none => region
  | some [] =>
      { region with
        extents := { region.extents with x2 := region.extents.x1, y2 := region.extents.y1 } }
  | some (box :: rest) =>
      let boxEnd := (box :: rest).getLast (List.cons_ne_nil box rest)
      { region with
        extents := (box :: rest).foldl setExtentsStep
          { x1 := box.x1, y1 := box.y1, x2 := boxEnd.x2, y2 := boxEnd.y2 } }

/-! ## Intersection -/

/-- A pointer moves on behind the box that ends at `x2`. -/
def advance (box : Box) (rest : List Box) (x2 : Int) : List Box :=
  if box.x2 = x2 then rest else box :: rest

theorem length_advance (box : Box) (rest : List Box) (x2 : Int) :
    (advance box rest x2).length = if box.x2 = x2 then rest.length else rest.length + 1 := by
  rw [advance]
  split <;> rfl

def intersectO (r1 r2 : List Box) (y1 y2 : Int) : List Box :=
  match r1, r2 with
  | box1 :: rest1, box2 :: rest2 =>
      let x1 := max box1.x1 box2.x1
      let x2 := min box1.x2 box2.x2
      let rest := intersectO (advance box1 rest1 x2) (advance box2 rest2 x2) y1 y2
      if x1 < x2 then { x1 := x1, y1 := y1, x2 := x2, y2 := y2 } :: rest else rest
  | _, _ => []
termination_by r1.length + r2.length
decreasing_by
  simp only [length_advance, List.length_cons]
  split <;> split <;> omega

def emptied (extents : Box) : PixRegion where
  extents := { extents with x2 := extents.x1, y2 := extents.y1 }
  data := some []

def intersectExtents (extents1 extents2 : Box) : Box where
  x1 := max extents1.x1 extents2.x1
  y1 := max extents1.y1 extents2.y1
  x2 := min extents1.x2 extents2.x2
  y2 := min extents1.y2 extents2.y2

def pixmanRegionIntersect (reg1 reg2 : PixRegion) : PixRegion :=
  if reg1.isNil || reg2.isNil || !reg1.extents.extentCheck reg2.extents then
    emptied reg1.extents
  else if reg1.data.isNone && reg2.data.isNone then
    { extents := intersectExtents reg1.extents reg2.extents, data := none }
  else if reg2.data.isNone && reg2.extents.subsumes reg1.extents then reg1
  else if reg1.data.isNone && reg1.extents.subsumes reg2.extents then reg2
  else pixmanSetExtents (pixmanOp intersectO false false reg1 reg2)

/-! ## Union -/

/-- The boxes that are complete, and the sides of the one under way. -/
structure Merge where
  done : List Box
  x1 : Int
  x2 : Int
  deriving DecidableEq, Repr

def mergeRect (y1 y2 : Int) (m : Merge) (r : Box) : Merge :=
  if r.x1 ≤ m.x2 then { m with x2 := if m.x2 < r.x2 then r.x2 else m.x2 }
  else
    { done := m.done ++ [{ x1 := m.x1, y1 := y1, x2 := m.x2, y2 := y2 }]
      x1 := r.x1
      x2 := r.x2 }

/-- The three loops of `pixman_region_union_o`. -/
def mergeBoth (y1 y2 : Int) (m : Merge) (r1 r2 : List Box) : Merge :=
  match r1, r2 with
  | box1 :: rest1, box2 :: rest2 =>
      if box1.x1 < box2.x1 then mergeBoth y1 y2 (mergeRect y1 y2 m box1) rest1 (box2 :: rest2)
      else mergeBoth y1 y2 (mergeRect y1 y2 m box2) (box1 :: rest1) rest2
  | r1, [] => r1.foldl (mergeRect y1 y2) m
  | [], r2 => r2.foldl (mergeRect y1 y2) m
termination_by r1.length + r2.length

def Merge.finish (y1 y2 : Int) (m : Merge) : List Box :=
  m.done ++ [{ x1 := m.x1, y1 := y1, x2 := m.x2, y2 := y2 }]

def unionO (r1 r2 : List Box) (y1 y2 : Int) : List Box :=
  match r1, r2 with
  | box1 :: rest1, box2 :: rest2 =>
      if box1.x1 < box2.x1 then
        (mergeBoth y1 y2 { done := [], x1 := box1.x1, x2 := box1.x2 } rest1
          (box2 :: rest2)).finish y1 y2
      else
        (mergeBoth y1 y2 { done := [], x1 := box2.x1, x2 := box2.x2 } (box1 :: rest1)
          rest2).finish y1 y2
  | _, _ => []

def unionExtents (extents1 extents2 : Box) : Box where
  x1 := min extents1.x1 extents2.x1
  y1 := min extents1.y1 extents2.y1
  x2 := max extents1.x2 extents2.x2
  y2 := max extents1.y2 extents2.y2

def pixmanRegionUnion (reg1 reg2 : PixRegion) : PixRegion :=
  if reg1.isNil then reg2
  else if reg2.isNil then reg1
  else if reg1.data.isNone && reg1.extents.subsumes reg2.extents then reg1
  else if reg2.data.isNone && reg2.extents.subsumes reg1.extents then reg2
  else
    -- The destination is `reg1`, whose extents may be those of the result here.
    let newReg := pixmanOp unionO true true reg1 reg2
    { newReg with extents := unionExtents newReg.extents reg2.extents }

/-! ## Subtraction -/

/-- The boxes of the minuends that are left when no subtrahend is. -/
def remainingMinuends (x1 : Int) (r1 : List Box) (y1 y2 : Int) : List Box :=
  match r1 with
  | [] => []
  | box :: rest =>
      { x1 := x1, y1 := y1, x2 := box.x2, y2 := y2 } :: appendNonO rest y1 y2

/-- The fence at the edge of a new minuend; behind the last one it is not read again. -/
def nextFence (x1 : Int) : List Box → Int
  | [] => x1
  | next :: _ => next.x1

/-- `x1` is the left fence: the part of the first minuend from it on is not yet checked. -/
def subtractFrom (x1 : Int) (r1 r2 : List Box) (y1 y2 : Int) : List Box :=
  match r1, r2 with
  | minuend :: rest1, subtrahend :: rest2 =>
      if subtrahend.x2 ≤ x1 then subtractFrom x1 (minuend :: rest1) rest2 y1 y2
      else if subtrahend.x1 ≤ x1 then
        if subtrahend.x2 ≥ minuend.x2 then
          subtractFrom (nextFence x1 rest1) rest1 (subtrahend :: rest2) y1 y2
        else subtractFrom subtrahend.x2 (minuend :: rest1) rest2 y1 y2
      else if subtrahend.x1 < minuend.x2 then
        { x1 := x1, y1 := y1, x2 := subtrahend.x1, y2 := y2 } ::
          if subtrahend.x2 ≥ minuend.x2 then
            subtractFrom (nextFence x1 rest1) rest1 (subtrahend :: rest2) y1 y2
          else subtractFrom subtrahend.x2 (minuend :: rest1) rest2 y1 y2
      else
        let rest := subtractFrom (nextFence x1 rest1) rest1 (subtrahend :: rest2) y1 y2
        if minuend.x2 > x1 then { x1 := x1, y1 := y1, x2 := minuend.x2, y2 := y2 } :: rest
        else rest
  | r1, _ => remainingMinuends x1 r1 y1 y2
termination_by r1.length + r2.length

def subtractO (r1 r2 : List Box) (y1 y2 : Int) : List Box :=
  match r1 with
  | [] => []
  | minuend :: _ => subtractFrom minuend.x1 r1 r2 y1 y2

def pixmanRegionSubtract (regM regS : PixRegion) : PixRegion :=
  if regM.isNil || regS.isNil || !regM.extents.extentCheck regS.extents then regM
  else pixmanSetExtents (pixmanOp subtractO true false regM regS)

/-! ## Reading a region -/

def pixmanRegionRectangles (region : PixRegion) : List Box := region.rects

def pixmanRegionNotEmpty (region : PixRegion) : Bool := !region.isNil

def pixmanRegionExtents (region : PixRegion) : Box := region.extents

/-- One turn of the loop of `pixman_region_selfcheck`: the bounds with the next box, while each
box is in order after the one before it. -/
def selfcheckStep (prev : Box) (bounds : Option Box) (next : Box) : Option Box :=
  match bounds with
  | none => none
  | some box =>
      if next.x1 ≥ next.x2 || next.y1 ≥ next.y2 then none
      else if next.y1 < prev.y1 ||
          (next.y1 == prev.y1 && (next.x1 < prev.x2 || next.y2 != prev.y2)) then none
      else some (setExtentsStep box next)

def selfcheckLoop : Box → List Box → Option Box → Option Box
  | _, [], bounds => bounds
  | prev, next :: rest, bounds => selfcheckLoop next rest (selfcheckStep prev bounds next)

def pixmanRegionSelfcheck (reg : PixRegion) : Bool :=
  if reg.extents.x1 > reg.extents.x2 || reg.extents.y1 > reg.extents.y2 then false
  else match reg.rects with
    | [] => reg.extents.x1 == reg.extents.x2 && reg.extents.y1 == reg.extents.y2
    | [_] => reg.data.isNone
    | box :: rest =>
        let boxEnd := (box :: rest).getLast (List.cons_ne_nil box rest)
        selfcheckLoop box rest (some { box with y2 := boxEnd.y2 }) == some reg.extents

/-! ## The regions of xrdp -/

def toBoxRegion (rect : Rect) : PixRegion :=
  pixmanRegionInitRect rect.left rect.top (unsignedInt (rect.right - rect.left))
    (unsignedInt (rect.bottom - rect.top))

def xrdpRegionCreate : PixRegion := pixmanRegionInit

def xrdpRegionAddRect (self : PixRegion) (rect : Rect) : PixRegion :=
  pixmanRegionUnion self (toBoxRegion rect)

def xrdpRegionSubtractRect (self : PixRegion) (rect : Rect) : PixRegion :=
  pixmanRegionSubtract self (toBoxRegion rect)

def xrdpRegionIntersectRect (self : PixRegion) (rect : Rect) : PixRegion :=
  pixmanRegionIntersect self (toBoxRegion rect)

def xrdpRegionGetRect (self : PixRegion) (index : Int) : Option Rect :=
  if index ≥ 0 ∧ index < self.numRects then (self.rects[index.toNat]?).map Box.toRect else none

def xrdpRegionGetBounds (self : PixRegion) : Rect := (pixmanRegionExtents self).toRect

def xrdpRegionNotEmpty (self : PixRegion) : Bool := pixmanRegionNotEmpty self

end XrdpConsole.PixmanRegion
