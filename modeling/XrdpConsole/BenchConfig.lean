import XrdpConsole.Library.Sections
import XrdpConsole.Library.UnicodeText

/-!
# The private configuration of a benchmark run

`rewrite_xrdp_config` and `remove_chansrv_from_config` of `xrdp_vnc_bench.py`: the installed
configuration is copied line by line with the managed assignments replaced, the lines that
would switch graphics off removed and the one that switches dynamic resizing off added.
-/

namespace XrdpConsole.BenchConfig

open XrdpConsole.Library

set_option autoImplicit false

abbrev Text := List Char

/-- `str.lower`, of which only what it makes of ASCII characters is fixed here. -/
structure Lowering where
  lower : Text → Text
  ascii : ∀ text : Text, (∀ c ∈ text, c.toNat < 128) → lower text = text.map Char.toLower
  ascii_head : ∀ (c : Char) (rest : Text), c.toNat < 128 →
    (lower (c :: rest)).head? = some c.toLower

/-! ## Lines -/

/-- The section that a header line opens. -/
def header (line : Text) : Option Text :=
  let stripped := stripBoth line
  if stripped.head? = some '[' ∧ stripped.getLast? = some ']' then
    some stripped.tail.dropLast
  else
    none

def commented (text : Text) : Bool := text.head? = some ';' || text.head? = some '#'

def keyName (line : Text) : Text := stripBoth (line.takeWhile (· ≠ '='))

/-- An assignment that is no comment. -/
def Active (line : Text) : Prop := '=' ∈ line ∧ commented (stripBoth line) = false

instance (line : Text) : Decidable (Active line) := inferInstanceAs (Decidable (_ ∧ _))

abbrev consoleHeader : Text := "[Console]".toList

/-! ## The managed assignments -/

/-- The arguments of `rewrite_xrdp_config`, source and target apart. -/
structure Arguments where
  port : Int
  vncPort : Int
  logPath : Text
  chansrvPath : Text
  cert : Text
  key : Text
  maxBpp : Int
  disableGfxForVnc : Bool
  enableGfxForVnc : Bool
  consoleLib : Text
  bitmapCompression : Option Bool
  bulkCompression : Option Bool
  disableDynamicResizing : Bool
  bindHost : Text

/-- A section and the name of a key in it. -/
abbrev Item := Text × Text

/-- An item with the value that is assigned to it. -/
structure Managed where
  item : Item
  value : Text

def Managed.line (managed : Managed) : Text := managed.item.2 ++ '=' :: managed.value

def managed (name key : String) (value : Text) : Managed := ⟨(name.toList, key.toList), value⟩

def boolText (value : Bool) : Text := if value then "true".toList else "false".toList

variable (lowering : Lowering) (arguments : Arguments)

def Arguments.replacements : List Managed :=
  [managed "Globals" "port" ("tcp://".toList ++ arguments.bindHost ++ ':' :: decimalInt arguments.port),
   managed "Globals" "fork" "true".toList,
   managed "Globals" "certificate" arguments.cert,
   managed "Globals" "key_file" arguments.key,
   managed "Globals" "autorun" "Console".toList,
   managed "Globals" "allow_channels" "true".toList,
   managed "Globals" "max_bpp" (decimalInt arguments.maxBpp),
   managed "Logging" "LogFile" arguments.logPath,
   managed "Logging" "EnableSyslog" "false".toList,
   managed "Channels" "drdynvc" (boolText !arguments.disableGfxForVnc),
   managed "Console" "lib" arguments.consoleLib,
   managed "Console" "port" (decimalInt arguments.vncPort),
   managed "Console" "password" "na".toList,
   managed "Console" "chansrvport" arguments.chansrvPath,
   managed "Console" "channel.cliprdr" "true".toList,
   managed "Console" "channel.drdynvc" (boolText !arguments.disableGfxForVnc)] ++
  (arguments.bitmapCompression.map fun on => managed "Globals" "bitmap_compression" (boolText on)).toList ++
  (arguments.bulkCompression.map fun on => managed "Globals" "bulk_compression" (boolText on)).toList

/-- The arguments that are texts. -/
def Arguments.values : List Text :=
  [arguments.logPath, arguments.chansrvPath, arguments.cert, arguments.key, arguments.consoleLib,
    arguments.bindHost]

abbrev LineArguments := { arguments : Arguments // ∀ value ∈ arguments.values, OneLine value }

def Arguments.replacement (item : Item) : Option Managed :=
  arguments.replacements.find? fun managed => managed.item = item

/-! ## The passes of `rewrite_xrdp_config` -/

/-- The first pass, from a line on in an open section: the lines put out and the items seen. -/
def replaceFrom : Text → List Text → List Text × List Item
  | _, [] => ([], [])
  | name, line :: rest =>
      let here := (header line).getD name
      let (output, seen) := replaceFrom here rest
      if Active line then
        match arguments.replacement (here, keyName line) with
        | some replacement => (replacement.line :: output, (here, keyName line) :: seen)
        | none => (line :: output, seen)
      else
        (line :: output, seen)

def consoleStart (output : List Text) : Option Nat :=
  output.findIdx? fun line => stripBoth line = consoleHeader

def consoleEnd (start : Nat) (output : List Text) : Nat :=
  start + 1 + (output.drop (start + 1)).findIdx fun line => (header line).isSome

/-- An assignment to the key in any case that is no comment, as the later passes test for it. -/
def assigns (key : String) (line : Text) : Bool :=
  '=' ∈ line && lowering.lower (keyName line) = key.toList && !commented (stripLeft line)

def removeDisableGfx (start stop : Nat) (output : List Text) : List Text :=
  (output.zipIdx.filter fun (line, index) =>
    !(start < index && index < stop && assigns lowering "disable_gfx" line)).map Prod.fst

def dynamicLine : Text := "enable_dynamic_resizing=false".toList

def insertDynamic (start stop : Nat) (output : List Text) : List Text :=
  let present := ((output.take stop).drop (start + 1)).any (assigns lowering "enable_dynamic_resizing")
  if present then output else output.take stop ++ dynamicLine :: output.drop stop

structure File where
  text : Text
  mode : Nat
  deriving DecidableEq

def lacks (item : Item) : Text := "installed xrdp.ini lacks ".toList ++ item.1 ++ ' ' :: item.2

def lacksConsole : Text := "installed xrdp.ini lacks [Console] section".toList

def exclusiveText : Text := "GFX enable and disable options are mutually exclusive".toList

def gfxPass (output : List Text) : Except Text (List Text) := do
  let some start := consoleStart output | throw lacksConsole
  if arguments.enableGfxForVnc || arguments.disableGfxForVnc then
    return removeDisableGfx lowering start (consoleEnd start output) output
  return output

def dynamicPass (output : List Text) : Except Text (List Text) := do
  if arguments.disableDynamicResizing then
    let some start := consoleStart output | throw lacksConsole
    return insertDynamic lowering start (consoleEnd start output) output
  return output

/-- The lines that are written, or the text of the error. -/
def rewriteLines (lines : List Text) : Except Text (List Text) := do
  if arguments.disableGfxForVnc && arguments.enableGfxForVnc then
    throw exclusiveText
  let (output, seen) := replaceFrom arguments [] lines
  if let some missing := arguments.replacements.find? fun managed => managed.item ∉ seen then
    throw (lacks missing.item)
  let output ← gfxPass lowering arguments output
  dynamicPass lowering arguments output

/-- `read_text().splitlines()` -/
def readLines (text : Text) : List Text := splitLines (universalNewlines text)

/-- The outcome of a call and the target file behind it. -/
def rewriteXrdpConfig (source : Text) (target : Option File) : Except Text Unit × Option File :=
  match rewriteLines lowering arguments (readLines source) with
  | .error text => (.error text, target)
  | .ok output => (.ok (), some { text := writeLines output, mode := 0o600 })

/-! ## Without the channel server -/

def chansrvKeys : List Text :=
  ["chansrvport", "channel.cliprdr", "channel.drdynvc"].map String.toList

def removed (name line : Text) : Bool :=
  name = "Console".toList && '=' ∈ line && lowering.lower (keyName line) ∈ chansrvKeys

def keepFrom : Text → List Text → List Text
  | _, [] => []
  | name, line :: rest =>
      let here := (header line).getD name
      if removed lowering here line then
        keepFrom here rest
      else
        line :: keepFrom here rest

def removeChansrvFromConfig (file : File) : File :=
  { file with text := writeLines (keepFrom lowering [] (readLines file.text)) }

/-- The configuration that a case is run with. -/
def caseConfig (noChansrv : Bool) (source : Text) (target : Option File) :
    Except Text Unit × Option File :=
  match rewriteXrdpConfig lowering arguments source target with
  | (.error text, config) => (.error text, config)
  | (.ok (), config) =>
      (.ok (), if noChansrv then config.map (removeChansrvFromConfig lowering) else config)

end XrdpConsole.BenchConfig
