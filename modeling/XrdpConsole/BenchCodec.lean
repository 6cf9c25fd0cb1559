import Mathlib.Data.List.Induction
import XrdpConsole.Library.TextSearch

/-!
# The negotiated codec

`run_case` reads from the log of xrdp which encoder is in use. The texts it looks for are part
of two of the five messages with which `xrdp_encoder_create` starts an encoder.
-/

namespace XrdpConsole.BenchCodec

open XrdpConsole.Library

set_option autoImplicit false

/-! ## Messages -/

/-- The encoders that `xrdp_encoder_create` starts. -/
inductive Codec where
  | jpeg
  | h264Gfx
  | h264
  | gfxRfxPro
  | rfx
  deriving DecidableEq, Repr

/-- `self->gfx` of the encoder. -/
def Codec.gfx : Codec → Bool
  | .h264Gfx | .gfxRfxPro => true
  | .jpeg | .h264 | .rfx => false

inductive Policy where
  | selectedBackend
  | noDrdynvc
  deriving DecidableEq, Repr

inductive Event where
  | started (codec : Codec)
  | policy (kind : Policy)
  deriving DecidableEq, Repr

/-- `xrdp_wm_create` writes the message about `drdynvc`. -/
def Policy.message : Policy → List Char
  | .selectedBackend =>
      "Disabling GFX for the selected VNC backend before capability negotiation".toList
  | .noDrdynvc => "Disabling GFX as 'drdynvc' isn't available".toList

def Codec.message : Codec → List Char
  | .jpeg => "xrdp_encoder_create: starting jpeg codec session".toList
  | .h264Gfx => "xrdp_encoder_create: starting h264 codec session gfx".toList
  | .h264 => "xrdp_encoder_create: starting h264 codec session".toList
  | .gfxRfxPro => "xrdp_encoder_create: starting gfx rfx pro codec session".toList
  | .rfx => "xrdp_encoder_create: starting rfx codec session".toList

def Event.message : Event → List Char
  | .started codec => codec.message
  | .policy kind => kind.message

/-! ## The source functions -/

def gfxText : List Char := "starting gfx".toList

def rfxText : List Char := "starting rfx codec session".toList

/-- `str.rfind`. -/
def rfind (text pattern : List Char) : Int :=
  match lastIndexOf pattern text with
  | some index => index
  | none => -1

inductive Negotiated where
  | gfxDisabled
  | gfx
  | rfx
  deriving DecidableEq, Repr

def negotiated (maxBpp : Int) (logText : List Char) : Except String Negotiated :=
  let gfxPos := rfind logText gfxText
  let rfxPos := rfind logText rfxText
  let policyPos := max (rfind logText Policy.selectedBackend.message)
    (rfind logText Policy.noDrdynvc.message)
  let latestEncoderPos := max gfxPos rfxPos
  if policyPos > latestEncoderPos ∨ (maxBpp < 32 ∧ latestEncoderPos < 0) then
    .ok .gfxDisabled
  else if latestEncoderPos ≥ 0 then
    .ok (if gfxPos > rfxPos then .gfx else .rfx)
  else
    .error "xrdp did not report a negotiated graphics encoder"

/-- The part of `run_case` before the measurement. -/
def detectCodec (maxBpp : Int) (disableGfxForVnc : Bool) (logText : List Char) :
    Except String Negotiated :=
  match negotiated maxBpp logText with
  | .error error => .error error
  | .ok codec =>
      if disableGfxForVnc ∧ codec = .gfx then
        .error "GFX remained active after the Console policy"
      else
        .ok codec

/-! ## Logs -/

def searched : List (List Char) :=
  [gfxText, rfxText, Policy.selectedBackend.message, Policy.noDrdynvc.message]

/-- A line of the log, with the message it carries if that is one of those above. The rest of the
line, and every other line, holds none of the texts that are searched for. -/
structure LogLine where
  text : List Char
  event : Option Event
  oneLine : '\n' ∉ text
  carries : ∀ found, event = some found → found.message <:+: text
  quiet : ∀ pattern ∈ searched, pattern <:+: text →
    ∃ found, event = some found ∧ pattern <:+: found.message

def logText (log : List LogLine) : List Char := joinLines '\n' (log.map LogLine.text)

def events (log : List LogLine) : List Event := log.filterMap LogLine.event

/-- The encoders started since the last policy message, the last one first. -/
def startedSince : List Event → List Codec
  | .started codec :: earlier => codec :: startedSince earlier
  | _ => []

def lastStartedSincePolicy (log : List LogLine) : Option Codec :=
  (startedSince (events log).reverse).head?

/-- The last encoder of all, where the last event is the first of the list. -/
def lastCodec : List Event → Option Codec
  | [] => none
  | .started codec :: _ => some codec
  | .policy _ :: earlier => lastCodec earlier

def lastStarted (log : List LogLine) : Option Codec := lastCodec (events log).reverse

/-! ## What the search finds -/

theorem searched_fresh : ∀ pattern ∈ searched, '\n' ∉ pattern ∧ pattern ≠ [] := by
  decide +kernel

def allEvents : List Event :=
  [.started .jpeg, .started .h264Gfx, .started .h264, .started .gfxRfxPro, .started .rfx,
    .policy .selectedBackend, .policy .noDrdynvc]

theorem mem_all_events (found : Event) : found ∈ allEvents := by
  rcases found with (_ | _ | _ | _ | _) | (_ | _) <;> simp [allEvents]

/-- Which of the texts are part of which messages. -/
theorem message_table : ∀ found ∈ allEvents, '\n' ∉ found.message ∧
    (gfxText <:+: found.message ↔ found = .started .gfxRfxPro) ∧
    (rfxText <:+: found.message ↔ found = .started .rfx) ∧
    ∀ kind ∈ [Policy.selectedBackend, Policy.noDrdynvc],
      (kind.message <:+: found.message ↔ found = .policy kind) := by
  decide +kernel

theorem gfx_text_marks (found : Event) :
    gfxText <:+: found.message ↔ found = .started .gfxRfxPro :=
  (message_table found (mem_all_events found)).2.1

theorem rfx_text_marks (found : Event) : rfxText <:+: found.message ↔ found = .started .rfx :=
  (message_table found (mem_all_events found)).2.2.1

theorem policy_marks (kind : Policy) (found : Event) :
    kind.message <:+: found.message ↔ found = .policy kind := by
  apply (message_table found (mem_all_events found)).2.2.2
  cases kind <;> simp

theorem policy_searched (kind : Policy) : kind.message ∈ searched := by
  cases kind <;> simp [searched]

theorem line_holds_iff (line : LogLine) {pattern : List Char} (member : pattern ∈ searched) :
    pattern <:+: line.text ↔ ∃ found, line.event = some found ∧ pattern <:+: found.message := by
  constructor
  · exact line.quiet pattern member
  · rintro ⟨found, event, holds⟩
    exact holds.trans (line.carries found event)

section Position

variable {pattern : List Char}

theorem log_text_concat (log : List LogLine) (line : LogLine) :
    logText (log ++ [line]) = joinLines '\n' (log.map LogLine.text ++ [line.text]) := by
  rw [logText, List.map_append, List.map_cons, List.map_nil]

theorem rfind_missing (member : pattern ∈ searched) (log : List LogLine) {line : LogLine}
    (missing : ¬pattern <:+: line.text) :
    rfind (logText (log ++ [line])) pattern = rfind (logText log) pattern := by
  obtain ⟨fresh, some_symbol⟩ := searched_fresh pattern member
  rw [rfind, log_text_concat, last_index_lines fresh some_symbol, (last_index_none _).mpr missing]
  rfl

theorem rfind_holds (member : pattern ∈ searched) (log : List LogLine) {line : LogLine}
    (holds : pattern <:+: line.text) :
    ((logText log).length : Int) ≤ rfind (logText (log ++ [line])) pattern := by
  obtain ⟨fresh, some_symbol⟩ := searched_fresh pattern member
  rw [rfind, log_text_concat, last_index_lines fresh some_symbol]
  cases found : lastIndexOf pattern line.text with
  | none => exact absurd holds ((last_index_none _).mp found)
  | some index =>
      simp only [logText]
      omega

theorem rfind_lt (member : pattern ∈ searched) (log : List LogLine) :
    rfind (logText log) pattern < (logText log).length := by
  rw [rfind]
  cases found : lastIndexOf pattern (logText log) with
  | none =>
      simp only
      omega
  | some index =>
      have bound := last_index_lt (searched_fresh pattern member).2 found
      simp only
      omega

end Position

theorem gfx_text_searched : gfxText ∈ searched := by simp [searched]

theorem rfx_text_searched : rfxText ∈ searched := by simp [searched]

theorem line_holds_gfx (line : LogLine) :
    gfxText <:+: line.text ↔ line.event = some (.started .gfxRfxPro) := by
  rw [line_holds_iff line gfx_text_searched]
  simp [gfx_text_marks]

theorem line_holds_rfx (line : LogLine) :
    rfxText <:+: line.text ↔ line.event = some (.started .rfx) := by
  rw [line_holds_iff line rfx_text_searched]
  simp [rfx_text_marks]

theorem line_holds_policy (line : LogLine) (kind : Policy) :
    kind.message <:+: line.text ↔ line.event = some (.policy kind) := by
  rw [line_holds_iff line (policy_searched kind)]
  simp [policy_marks]

section Line

variable (log : List LogLine) {line : LogLine}

theorem gfx_line_negotiated (event : line.event = some (.started .gfxRfxPro)) :
    negotiated 32 (logText (log ++ [line])) = .ok .gfx := by
  have here := rfind_holds gfx_text_searched log ((line_holds_gfx line).mpr event)
  have rfxBound := rfind_lt rfx_text_searched log
  have backendBound := rfind_lt (policy_searched .selectedBackend) log
  have drdynvcBound := rfind_lt (policy_searched .noDrdynvc) log
  simp only [negotiated]
  rw [rfind_missing rfx_text_searched log (by simp [line_holds_rfx, event]),
    rfind_missing (policy_searched .selectedBackend) log (by simp [line_holds_policy, event]),
    rfind_missing (policy_searched .noDrdynvc) log (by simp [line_holds_policy, event])]
  rw [if_neg (by omega), if_pos (by omega), if_pos (by omega)]

theorem rfx_line_negotiated (event : line.event = some (.started .rfx)) :
    negotiated 32 (logText (log ++ [line])) = .ok .rfx := by
  have here := rfind_holds rfx_text_searched log ((line_holds_rfx line).mpr event)
  have gfxBound := rfind_lt gfx_text_searched log
  have backendBound := rfind_lt (policy_searched .selectedBackend) log
  have drdynvcBound := rfind_lt (policy_searched .noDrdynvc) log
  simp only [negotiated]
  rw [rfind_missing gfx_text_searched log (by simp [line_holds_gfx, event]),
    rfind_missing (policy_searched .selectedBackend) log (by simp [line_holds_policy, event]),
    rfind_missing (policy_searched .noDrdynvc) log (by simp [line_holds_policy, event])]
  rw [if_neg (by omega), if_pos (by omega), if_neg (by omega)]

theorem policy_line_negotiated {kind : Policy} (event : line.event = some (.policy kind)) :
    negotiated 32 (logText (log ++ [line])) = .ok .gfxDisabled := by
  have here := rfind_holds (policy_searched kind) log ((line_holds_policy line kind).mpr event)
  have gfxBound := rfind_lt gfx_text_searched log
  have rfxBound := rfind_lt rfx_text_searched log
  simp only [negotiated]
  rw [rfind_missing gfx_text_searched log (by simp [line_holds_gfx, event]),
    rfind_missing rfx_text_searched log (by simp [line_holds_rfx, event])]
  apply if_pos
  cases kind <;> omega

/-- The start of any other encoder is not found. -/
theorem other_line_negotiated (noGfx : line.event ≠ some (.started .gfxRfxPro))
    (noRfx : line.event ≠ some (.started .rfx)) (noPolicy : ∀ kind, line.event ≠ some (.policy kind)) :
    negotiated 32 (logText (log ++ [line])) = negotiated 32 (logText log) := by
  simp only [negotiated]
  rw [rfind_missing gfx_text_searched log (by rwa [line_holds_gfx]),
    rfind_missing rfx_text_searched log (by rwa [line_holds_rfx]),
    rfind_missing (policy_searched .selectedBackend) log
      (by rw [line_holds_policy]; exact noPolicy .selectedBackend),
    rfind_missing (policy_searched .noDrdynvc) log
      (by rw [line_holds_policy]; exact noPolicy .noDrdynvc)]

end Line

/-- The outcome for these events, the last one first. -/
def verdict : List Event → Except String Negotiated
  | [] => .error "xrdp did not report a negotiated graphics encoder"
  | .policy _ :: _ => .ok .gfxDisabled
  | .started .gfxRfxPro :: _ => .ok .gfx
  | .started .rfx :: _ => .ok .rfx
  | .started _ :: earlier => verdict earlier

theorem events_concat (log : List LogLine) (line : LogLine) :
    (events (log ++ [line])).reverse = line.event.toList ++ (events log).reverse := by
  rw [events, List.filterMap_append, List.reverse_append]
  cases found : line.event <;> simp [found, events]

theorem negotiated_verdict (log : List LogLine) :
    negotiated 32 (logText log) = verdict (events log).reverse := by
  induction log using List.reverseRecOn with
  | nil => decide +kernel
  | append_singleton log line ih =>
      rw [events_concat]
      cases event : line.event with
      | none =>
          rw [other_line_negotiated log (by simp [event]) (by simp [event]) (by simp [event]), ih]
          rfl
      | some found =>
          cases found with
          | policy kind => exact policy_line_negotiated log event
          | started codec =>
              cases codec with
              | gfxRfxPro => exact gfx_line_negotiated log event
              | rfx => exact rfx_line_negotiated log event
              | jpeg | h264Gfx | h264 =>
                  rw [other_line_negotiated log (by simp [event]) (by simp [event])
                    (by simp [event]), ih]
                  rfl

/-! ## When the detection is right -/

/-- The start of this encoder is found in the log. -/
def Codec.found : Codec → Bool
  | .gfxRfxPro | .rfx => true
  | .jpeg | .h264Gfx | .h264 => false

def Event.found : Event → Bool
  | .started codec => codec.found
  | .policy _ => true

/-- Since the last policy message, the last encoder is one that is found, or the last one that is
found stands for the same answer. `since` has the last encoder first. -/
def Recognized (since : List Codec) : Prop :=
  match since.head? with
  | none | some .gfxRfxPro | some .rfx => True
  | some .h264Gfx => since.find? Codec.found = some .gfxRfxPro
  | some .jpeg | some .h264 => since.find? Codec.found ≠ some .gfxRfxPro

/-- No policy message follows the last encoder if that one is `gfxRfxPro`; if it is `h264Gfx`,
nothing that is found is in the log, or `gfxRfxPro` is the last of it. -/
def Halted (newest : List Event) (last : Option Codec) : Prop :=
  match last with
  | some .gfxRfxPro => startedSince newest ≠ []
  | some .h264Gfx => newest.find? Event.found = none ∨
      newest.find? Event.found = some (.started .gfxRfxPro)
  | _ => True

theorem verdict_gfx_iff (newest : List Event) :
    verdict newest = .ok .gfx ↔ (startedSince newest).find? Codec.found = some .gfxRfxPro := by
  induction newest with
  | nil => simp [verdict, startedSince]
  | cons first earlier ih =>
      cases first with
      | policy kind => simp [verdict, startedSince]
      | started codec =>
          cases codec with
          | gfxRfxPro | rfx => simp [verdict, startedSince, Codec.found]
          | jpeg | h264Gfx | h264 => simpa [verdict, startedSince, Codec.found] using ih

theorem gfx_reported_iff (since : List Codec) :
    (since.find? Codec.found = some .gfxRfxPro ↔ ∃ codec, since.head? = some codec ∧ codec.gfx) ↔
      Recognized since := by
  cases since with
  | nil => simp [Recognized]
  | cons codec earlier => cases codec <;> simp [Recognized, Codec.found, Codec.gfx]

theorem verdict_found (newest : List Event) :
    (∃ codec, verdict newest = .ok codec ∧ codec ≠ .gfx) ↔
      ¬(newest.find? Event.found = none ∨
        newest.find? Event.found = some (.started .gfxRfxPro)) := by
  induction newest with
  | nil => simp [verdict]
  | cons first earlier ih =>
      cases first with
      | policy kind => simp [verdict, Event.found]
      | started codec =>
          cases codec with
          | gfxRfxPro | rfx => simp [verdict, Event.found, Codec.found]
          | jpeg | h264Gfx | h264 => simpa [verdict, Event.found, Codec.found] using ih

theorem halted_iff (newest : List Event) :
    ((∃ codec, lastCodec newest = some codec ∧ codec.gfx) →
      ¬∃ codec, verdict newest = .ok codec ∧ codec ≠ .gfx) ↔ Halted newest (lastCodec newest) := by
  rw [verdict_found, not_not]
  cases newest with
  | nil => simp [lastCodec, Halted]
  | cons first earlier =>
      cases first with
      | policy kind =>
          cases last : lastCodec earlier with
          | none => simp [lastCodec, last, Halted]
          | some codec =>
              cases codec <;>
                simp [lastCodec, last, Halted, Codec.gfx, Event.found, startedSince]
      | started codec =>
          cases codec <;>
            simp [lastCodec, Halted, Codec.gfx, Event.found, Codec.found, startedSince]

theorem detects_other (logText : List Char) :
    (∃ codec, detectCodec 32 true logText = .ok codec) ↔
      ∃ codec, negotiated 32 logText = .ok codec ∧ codec ≠ .gfx := by
  rw [detectCodec]
  cases negotiated 32 logText with
  | error error => simp
  | ok codec => cases codec <;> simp

/-- `run_case` tells the graphics pipeline by the log if and only if the last encoder since the last
policy message is recognized; and under `--disable-gfx-for-vnc` it stops wherever the last encoder
of the log was a graphics one if and only if that one is found and no policy message follows. -/
theorem detection_agrees_iff (log : List LogLine) (disableGfxForVnc : Bool) :
    ((negotiated 32 (logText log) = .ok .gfx ↔
        ∃ codec, lastStartedSincePolicy log = some codec ∧ codec.gfx) ∧
      (disableGfxForVnc → (∃ codec, lastStarted log = some codec ∧ codec.gfx) →
        ¬∃ codec, detectCodec 32 disableGfxForVnc (logText log) = .ok codec)) ↔
      Recognized (startedSince (events log).reverse) ∧
        (disableGfxForVnc → Halted (events log).reverse (lastStarted log)) := by
  rw [negotiated_verdict, verdict_gfx_iff, lastStartedSincePolicy, gfx_reported_iff]
  apply and_congr_right
  intro _
  cases disableGfxForVnc with
  | false => simp
  | true =>
      rw [detects_other, negotiated_verdict, lastStarted, halted_iff]

/-- A line with nothing but the message. -/
def bareLine (found : Event) : LogLine where
  text := found.message
  event := some found
  oneLine := (message_table found (mem_all_events found)).1
  carries := by simp
  quiet := by simp

/-- An `h264 codec session gfx` that replaced a probe's `rfx` is taken for the latter. -/
theorem h264_gfx_not_reported :
    lastStartedSincePolicy [bareLine (.started .rfx), bareLine (.started .h264Gfx)] =
        some .h264Gfx ∧
      Codec.h264Gfx.gfx = true ∧
      negotiated 32 (logText [bareLine (.started .rfx), bareLine (.started .h264Gfx)]) =
        .ok .rfx ∧
      detectCodec 32 true (logText [bareLine (.started .rfx), bareLine (.started .h264Gfx)]) =
        .ok .rfx := by
  decide +kernel

end XrdpConsole.BenchCodec
