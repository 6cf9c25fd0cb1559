import Mathlib.Data.Rat.Defs
import Mathlib.Data.List.Nodup
import Mathlib.Tactic.Ring
import Mathlib.Tactic.Linarith

/-!
# The ports of a benchmark run

`main` of `xrdp_vnc_bench.py` runs a case for each profile and repetition and gives each of
them a base port of its own, ten above the last; `run_case` takes three ports from it. With the
default base port the 252nd case listens on the port of the production VNC server.
-/

namespace XrdpConsole.BenchPorts

set_option autoImplicit false

/-- The keys of `VNC_PROFILES`. -/
inductive Profile where
  | baseline
  | lan
  | noxdamage
  | lanNoxdamage
  deriving DecidableEq

/-- The arguments that choose the cases, and the numbers that are checked with them. -/
structure Args where
  width : Int
  height : Int
  clientWidth : Int
  clientHeight : Int
  duration : ℚ
  fps : ℚ
  repetitions : Int
  inputHz : ℚ
  inputChurnFps : Option ℚ
  basePort : Int
  only : Option Profile

/-- The numbers pass the check of `main`. -/
def Args.valid (args : Args) : Bool :=
  !(args.width ≤ 0 || args.height ≤ 0 || args.clientWidth ≤ 0 || args.clientHeight ≤ 0 ||
    args.duration ≤ 0 || args.fps ≤ 0 || args.repetitions ≤ 0 || args.inputHz ≤ 0 ||
    args.inputChurnFps.any fun rate => rate < 0)

/-- What `run_case` is called with. -/
structure Case where
  profile : Profile
  basePort : Int
  repetition : Int

def Case.xrdpPort (case : Case) : Int := case.basePort

def Case.vncPort (case : Case) : Int := case.basePort + 2575

def Case.vncBackendPort (case : Case) : Int := case.vncPort + 1

def Case.ports (case : Case) : List Int := [case.xrdpPort, case.vncPort, case.vncBackendPort]

def profiles (args : Args) : List Profile :=
  match args.only with
  | some profile => [profile]
  | none => [.baseline, .lan]

def portOffset (args : Args) (index : Nat) (repetition : Int) : Int :=
  (index * args.repetitions + repetition - 1) * 10

/-- The cases in the order of the two loops. -/
def cases (args : Args) : List Case :=
  (profiles args).zipIdx.flatMap fun (profile, index) =>
    (List.range args.repetitions.toNat).map fun (earlier : Nat) =>
      { profile, repetition := earlier + 1,
        basePort := args.basePort + portOffset args index (earlier + 1) }

/-- The cases that are run, up to the first one that raises. -/
def runCases (raises : Nat → Bool) : Nat → List Case → List Case
  | _, [] => []
  | index, case :: rest => case :: if raises index then [] else runCases raises (index + 1) rest

def casesRun (args : Args) (raises : Nat → Bool) : List Case := runCases raises 0 (cases args)

/-- The ports of all cases are valid, different from each other and not those of the production
servers. -/
structure PortsPrivate (run : List Case) : Prop where
  valid : ∀ port ∈ run.flatMap Case.ports, 1 ≤ port ∧ port ≤ 65535
  distinct : (run.flatMap Case.ports).Nodup
  production : ∀ port ∈ run.flatMap Case.ports, port ≠ 5900 ∧ port ≠ 3389

/-! ## The base ports -/

theorem base_ports_from (args : Args) (list : List Profile) (start : Nat) {count : Nat}
    (repetitions : args.repetitions = count) :
    ((list.zipIdx start).flatMap fun (profile, index) =>
      (List.range count).map fun (earlier : Nat) =>
        (⟨profile, args.basePort + portOffset args index (earlier + 1), earlier + 1⟩ : Case)).map
          Case.basePort =
      (List.range (list.length * count)).map fun (index : Nat) =>
        args.basePort + 10 * (start * count + index) := by
  induction list generalizing start with
  | nil => simp
  | cons profile rest ih =>
      have tail := ih (start + 1)
      have total : (profile :: rest).length * count = count + rest.length * count := by
        rw [List.length_cons, Nat.succ_mul, Nat.add_comm]
      rw [List.zipIdx_cons, List.flatMap_cons, List.map_append, tail, total, List.range_add,
        List.map_append, List.map_map, List.map_map]
      congr 1
      · apply List.map_congr_left
        intro earlier _
        simp only [Function.comp_apply, portOffset, repetitions]
        ring
      · apply List.map_congr_left
        intro index _
        simp only [Function.comp_apply]
        push_cast
        ring

/-- The base ports of the cases go up in tens. -/
theorem base_ports (args : Args) (valid : args.valid = true) :
    (cases args).map Case.basePort =
      (List.range ((profiles args).length * args.repetitions.toNat)).map fun (index : Nat) =>
        args.basePort + 10 * index := by
  have repetitions : args.repetitions = args.repetitions.toNat := by
    simp [Args.valid] at valid
    omega
  have listed := base_ports_from args (profiles args) 0 repetitions
  simpa [cases] using listed

/-! ## The cases that are run -/

theorem run_cases_initial (raises : Nat → Bool) (index : Nat) (list : List Case) :
    runCases raises index list <+: list := by
  induction list generalizing index with
  | nil => exact List.prefix_rfl
  | cons case rest ih =>
      rw [runCases, List.prefix_cons_inj]
      split
      · apply List.nil_prefix
      · apply ih

/-- A case is run when no case before it raises. -/
theorem run_cases_reach (raises : Nat → Bool) (index : Nat) (list : List Case) (bound : Nat) :
    bound < (runCases raises index list).length ↔
      bound < list.length ∧ ∀ earlier < bound, raises (index + earlier) = false := by
  induction list generalizing index bound with
  | nil => simp [runCases]
  | cons case rest ih =>
      cases bound with
      | zero => simp [runCases]
      | succ bound =>
          rw [runCases, List.length_cons, List.length_cons, Nat.succ_lt_succ_iff,
            Nat.succ_lt_succ_iff]
          cases raised : raises index with
          | true =>
              simp only [if_true, List.length_nil, Nat.not_lt_zero, false_iff, not_and]
              intro _ none
              have first := none 0 (Nat.succ_pos bound)
              rw [Nat.add_zero, raised] at first
              contradiction
          | false =>
              simp only [Bool.false_eq_true, if_false, ih]
              apply and_congr_right
              intro _
              constructor
              · intro rest earlier below
                cases earlier with
                | zero => exact raised
                | succ earlier =>
                    rw [← Nat.add_assoc, Nat.add_right_comm]
                    exact rest earlier (by omega)
              · intro all earlier below
                have later := all (earlier + 1) (by omega)
                rwa [← Nat.add_assoc, Nat.add_right_comm] at later

theorem run_base_ports (args : Args) (raises : Nat → Bool) (valid : args.valid = true) :
    (casesRun args raises).map Case.basePort =
      (List.range (casesRun args raises).length).map fun (index : Nat) =>
        args.basePort + 10 * index := by
  have initial := run_cases_initial raises 0 (cases args)
  have short := initial.length_le
  have count := congrArg List.length (base_ports args valid)
  rw [List.length_map, List.length_map, List.length_range] at count
  rw [count] at short
  have taken := List.prefix_iff_eq_take.mp initial
  rw [← casesRun] at taken short
  conv_lhs => rw [taken]
  rw [List.map_take, base_ports args valid, ← List.map_take, List.take_range,
    Nat.min_eq_left short]

/-! ## The ports -/

/-- The ports of cases whose base ports go up in tens. -/
theorem ports_listed {run : List Case} {base : Int}
    (bases : run.map Case.basePort = (List.range run.length).map fun (index : Nat) =>
      base + 10 * index) :
    run.flatMap Case.ports = (List.range run.length).flatMap fun (index : Nat) =>
      [base + 10 * index, base + 10 * index + 2575, base + 10 * index + 2575 + 1] := by
  have above : run.flatMap Case.ports = (run.map Case.basePort).flatMap fun base =>
      [base, base + 2575, base + 2575 + 1] := by
    rw [List.flatMap_map]
    rfl
  rw [above, bases, List.flatMap_map]

/-- No port is given out twice, however many cases there are. -/
theorem ports_distinct (base : Int) (count : Nat) :
    ((List.range count).flatMap fun (index : Nat) =>
      [base + 10 * index, base + 10 * index + 2575, base + 10 * index + 2575 + 1]).Nodup := by
  apply List.nodup_flatMap.mpr
  constructor
  · intro index _
    simp
    omega
  · apply List.nodup_range.imp
    intro index other different
    simp only [Function.onFun, List.disjoint_left, List.mem_cons, List.not_mem_nil, or_false]
    omega

theorem private_iff_short {run : List Case}
    (bases : run.map Case.basePort = (List.range run.length).map fun (index : Nat) =>
      3390 + 10 * (index : Int)) :
    PortsPrivate run ↔ run.length ≤ 251 := by
  have listed := ports_listed bases
  constructor
  · intro exclusive
    apply Nat.le_of_not_lt
    intro long
    have used : (5900 : Int) ∈ run.flatMap Case.ports := by
      rw [listed, List.mem_flatMap]
      exact ⟨251, List.mem_range.mpr long, by simp⟩
    exact (exclusive.production 5900 used).1 rfl
  · intro short
    have close : ∀ port ∈ run.flatMap Case.ports,
        (1 ≤ port ∧ port ≤ 65535) ∧ port ≠ 5900 ∧ port ≠ 3389 := by
      intro port member
      rw [listed, List.mem_flatMap] at member
      obtain ⟨index, within, among⟩ := member
      have below := List.mem_range.mp within
      simp only [List.mem_cons, List.not_mem_nil, or_false] at among
      omega
    constructor
    · intro port member
      exact (close port member).1
    · rw [listed]
      apply ports_distinct
    · intro port member
      exact (close port member).2

/-- With the default base port a run keeps away from the production ports exactly when it has at
most 251 cases or one of the first 251 raises. -/
theorem ports_private_iff (args : Args) (raises : Nat → Bool) (valid : args.valid = true)
    (default : args.basePort = 3390) :
    PortsPrivate (casesRun args raises) ↔
      (profiles args).length * args.repetitions ≤ 251 ∨ ∃ index < 251, raises index = true := by
  have bases := run_base_ports args raises valid
  rw [default] at bases
  have count : (cases args).length = (profiles args).length * args.repetitions.toNat := by
    rw [← List.length_map Case.basePort, base_ports args valid, List.length_map, List.length_range]
  have positive : 0 < args.repetitions := by
    simp [Args.valid] at valid
    omega
  have total : ((cases args).length : Int) = (profiles args).length * args.repetitions := by
    rw [count]
    push_cast
    rw [Int.toNat_of_nonneg positive.le]
  rw [private_iff_short bases, ← total, ← Nat.not_lt, casesRun, run_cases_reach, not_and_or]
  apply or_congr
  · omega
  · simp

/-- The arguments of `--repetitions n`, with `--only baseline` and the other defaults. -/
def onlyBaseline (repetitions : Int) : Args :=
  { width := 1024, height := 640, clientWidth := 1366, clientHeight := 768, duration := 20,
    fps := 15, repetitions, inputHz := 5, inputChurnFps := none, basePort := 3390,
    only := some .baseline }

theorem ports_private_short : PortsPrivate (casesRun (onlyBaseline 3) fun _ => false) :=
  (ports_private_iff (onlyBaseline 3) (fun _ => false) (by decide) rfl).mpr (Or.inl (by decide))

theorem case_takes_production_port :
    (onlyBaseline 252).valid = true ∧
      ¬ PortsPrivate (casesRun (onlyBaseline 252) fun _ => false) := by
  have valid : (onlyBaseline 252).valid = true := by decide
  have bases := run_base_ports (onlyBaseline 252) (fun _ => false) valid
  constructor
  · exact valid
  · rw [private_iff_short bases, Nat.not_le, casesRun, run_cases_reach]
    constructor
    · rw [← List.length_map Case.basePort, base_ports _ valid]
      simp [profiles, onlyBaseline]
    · simp

end XrdpConsole.BenchPorts
