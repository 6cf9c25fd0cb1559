import Mathlib.Data.PNat.Basic
import Mathlib.Data.Rat.Defs
import Mathlib.Algebra.BigOperators.Group.Finset.Basic
import Mathlib.Algebra.Order.BigOperators.Group.List
import XrdpConsole.Library.UnicodeText
import XrdpConsole.Library.Worklist

/-!
# CPU time of a process tree

The benchmark reads `/proc/<pid>/stat` of every process to find the descendants of one, and
of each of these once more for its CPU time. The second field of a record is the command in
parentheses, with any characters in it: the benchmark splits the whole record at white
space, the sampler only what is behind the last parenthesis.
-/

namespace XrdpConsole.ProcessTree

open XrdpConsole.Library

set_option autoImplicit false

/-! ## The kernel's records -/

/-- A process as `/proc/<pid>/stat` has it. The fields from the process group to the page
faults, from the children's times to the memory size and behind the resident pages are read
by nobody here. -/
structure StatRecord where
  pid : Nat
  comm : List Char
  state : Char
  ppid : Nat
  untilTimes : List Int
  utime : Nat
  stime : Nat
  untilRss : List Int
  rss : Nat
  rest : List Int
  letter : state.isAlpha = true
  nine : untilTimes.length = 9
  eight : untilRss.length = 8

variable (record : StatRecord)

/-- The fields behind the command. -/
def StatRecord.fields : List (List Char) :=
  [record.state] :: decimal record.ppid :: record.untilTimes.map decimalInt ++
    decimal record.utime :: decimal record.stime :: record.untilRss.map decimalInt ++
    decimal record.rss :: record.rest.map decimalInt

def StatRecord.text : List Char :=
  decimal record.pid ++ ' ' :: '(' :: (record.comm ++ ')' :: ' ' :: Library.record record.fields)

/-- The records of all processes, in the order in which `/proc` lists them. -/
structure ProcessTable where
  records : List StatRecord
  distinct : (records.map StatRecord.pid).Nodup

/-! ## The readers -/

/-- Reads a word that has characters other than ASCII as an integer, in the digits of any
script. -/
structure Numerals where
  otherInteger : List Char → Option Int

variable (numerals : Numerals)

def Numerals.int (word : List Char) : Option Int :=
  if word.all fun c => c.toNat < 128 then integer word else numerals.otherInteger word

def readProcStat (line : List Char) : Option (Int × Int) := do
  let fields := words (← afterLast ')' line)
  let cpuTicks := (← numerals.int (← fields[11]?)) + (← numerals.int (← fields[12]?))
  let residentPages ← numerals.int (← fields[21]?)
  return (cpuTicks, residentPages)

variable (table : ProcessTable)

def ProcessTable.stat (pid : Int) : Option (List Char) :=
  (table.records.find? fun record => (record.pid : Int) = pid).map StatRecord.text

/-- `ticks` is the number of clock ticks in a second. -/
def processCpuSecondsPid (ticks : ℕ+) (pid : Int) : Rat :=
  (do
    let fields := words (← table.stat pid)
    let used := (← numerals.int (← fields[13]?)) + (← numerals.int (← fields[14]?))
    return (used : Rat) / (ticks : Nat)).getD 0

/-- The parent and the pid that a record is read to have. -/
def parentAndPid (stat : List Char) : Option (Int × Int) := do
  let fields := words stat
  let pid ← numerals.int (← fields[0]?)
  let parent ← numerals.int (← fields[3]?)
  return (parent, pid)

def children (parent : Int) : List Int :=
  ((table.records.filterMap fun record => parentAndPid numerals record.text).filter
    fun entry => entry.1 = parent).map Prod.snd

def processTreePids (rootPid : Int) : Option (List Int) :=
  closeOver (children numerals table) (table.records.length + 1) ⟨[rootPid], [rootPid]⟩

def processCpuTree (ticks : ℕ+) (rootPid : Int) : Option Rat :=
  (processTreePids numerals table rootPid).map fun pids =>
    (pids.map (processCpuSecondsPid numerals table ticks)).sum

/-! ## What is to be measured -/

/-- `parent` has started `child`, as the kernel says. -/
def Parent (parent child : Int) : Prop :=
  ∃ record ∈ table.records, (record.ppid : Int) = parent ∧ (record.pid : Int) = child

def Descendant (root pid : Int) : Prop := Relation.ReflTransGen (Parent table) root pid

def StatRecord.cpuTicks : Nat := record.utime + record.stime

open Classical in
noncomputable def ProcessTable.cpuTicks (root : Int) : Nat :=
  ((table.records.filter fun record => Descendant table root record.pid).map
    StatRecord.cpuTicks).sum

/-- The accounting of the tree below `root` is exact: its processes are found once each, their
ticks are summed up, and the sampler reads the same ticks from the same records. -/
structure Exact (ticks : ℕ+) (root : Int) : Prop where
  tree : ∃ pids, processTreePids numerals table root = some pids ∧ pids.Nodup ∧
    ∀ pid, pid ∈ pids ↔ Descendant table root pid
  cpu : processCpuTree numerals table ticks root =
    some ((table.cpuTicks root : Rat) / (ticks : Nat))
  sampler : ∀ record ∈ table.records, Descendant table root record.pid →
    (∃ pages, readProcStat numerals record.text = some ((record.cpuTicks : Int), pages)) ∧
      processCpuSecondsPid numerals table ticks record.pid =
        (record.cpuTicks : Rat) / (ticks : Nat)

/-! ## The fields of a record -/

/-- The characters of the fields behind the command. -/
theorem field_chars {word : List Char} (member : word ∈ record.fields) :
    word ≠ [] ∧ ∀ c ∈ word, c.isAlpha = true ∨ c = '-' ∨ c.isDigit = true := by
  have number : ∀ value, decimal value ≠ [] ∧
      ∀ c ∈ decimal value, c.isAlpha = true ∨ c = '-' ∨ c.isDigit = true := fun value =>
    ⟨(decimal_word value).1, fun c inside => Or.inr (Or.inr (decimal_digits inside))⟩
  have numbers : ∀ values : List Int, word ∈ values.map decimalInt →
      word ≠ [] ∧ ∀ c ∈ word, c.isAlpha = true ∨ c = '-' ∨ c.isDigit = true := by
    intro values listed
    obtain ⟨value, -, rfl⟩ := List.mem_map.mp listed
    exact ⟨decimal_int_nonempty value, fun c inside => Or.inr (decimal_int_digits inside)⟩
  simp only [StatRecord.fields, List.mem_cons, List.mem_append, List.cons_append] at member
  rcases member with rfl | rfl | (listed | rfl | rfl | listed) | rfl | listed
  · simp [record.letter]
  · exact number _
  · exact numbers _ listed
  · exact number _
  · exact number _
  · exact numbers _ listed
  · exact number _
  · exact numbers _ listed

theorem field_plain {word : List Char} (member : word ∈ record.fields) : PlainWord word := by
  obtain ⟨some_char, chars⟩ := field_chars record member
  refine ⟨some_char, fun c inside => ?_⟩
  rcases chars c inside with letter | sign | digit
  · exact letter_not_white letter
  · subst sign
    decide
  · exact digit_not_white digit

theorem decimal_plain (value : Nat) : PlainWord (decimal value) :=
  ⟨(decimal_word value).1, fun _ member => digit_not_white (decimal_digits member)⟩

theorem words_text : words record.text =
    decimal record.pid :: (words ('(' :: record.comm ++ [')']) ++ record.fields) := by
  have command : '(' :: (record.comm ++ ')' :: ' ' :: Library.record record.fields) =
      ('(' :: record.comm ++ [')']) ++ ' ' :: Library.record record.fields := by
    simp
  rw [StatRecord.text, words_append (by decide), words_plain (decimal_plain record.pid), command,
    words_append (by decide), words_record _ fun word member => field_plain record member]
  rfl

theorem int_decimal (value : Nat) : numerals.int (decimal value) = some (value : Int) := by
  have ascii : ((decimal value).all fun c => c.toNat < 128) = true := by
    rw [List.all_eq_true]
    intro c member
    have range := digit_range (decimal_digits member)
    exact decide_eq_true (by omega)
  rw [Numerals.int, if_pos ascii, integer_decimal]

theorem fields_parent : record.fields[1]? = some (decimal record.ppid) := by
  simp [StatRecord.fields]

theorem fields_utime : record.fields[11]? = some (decimal record.utime) := by
  simp [StatRecord.fields, record.nine]

theorem fields_stime : record.fields[12]? = some (decimal record.stime) := by
  simp [StatRecord.fields, List.getElem?_append, record.nine]

theorem fields_rss : record.fields[21]? = some (decimal record.rss) := by
  simp [StatRecord.fields, List.getElem?_append, record.nine, record.eight]

theorem read_proc_stat_text : readProcStat numerals record.text =
    some ((record.cpuTicks : Int), (record.rss : Int)) := by
  have no_paren : ∀ word ∈ record.fields, ')' ∉ word := by
    intro word member inside
    have either := (field_chars record member).2 ')' inside
    revert either
    decide
  have behind : ')' ∉ ' ' :: Library.record record.fields := by
    rw [List.mem_cons, not_or]
    exact ⟨by decide, record_fresh (by decide) _ no_paren⟩
  have split : record.text = (decimal record.pid ++ ' ' :: '(' :: record.comm) ++
      ')' :: ' ' :: Library.record record.fields := by
    simp [StatRecord.text]
  have fields : words (' ' :: Library.record record.fields) = record.fields := by
    rw [← List.nil_append (' ' :: _), words_append (by decide), words_nil, List.nil_append,
      words_record _ fun word member => field_plain record member]
  rw [split, readProcStat, after_last_append _ behind]
  simp [fields, fields_utime, fields_stime, fields_rss, int_decimal, StatRecord.cpuTicks]

/-! ## Commands without white space -/

def StatRecord.Plain : Prop := ∀ c ∈ record.comm, isWhiteSpace c = false

instance : Decidable record.Plain :=
  inferInstanceAs (Decidable (∀ c ∈ record.comm, isWhiteSpace c = false))

variable {record}

theorem words_plain_text (plain : record.Plain) : words record.text =
    decimal record.pid :: ('(' :: record.comm ++ [')']) :: record.fields := by
  have command : PlainWord ('(' :: record.comm ++ [')']) := by
    refine ⟨by simp, fun c member => ?_⟩
    simp only [List.cons_append, List.mem_cons, List.mem_append, List.not_mem_nil, or_false] at member
    rcases member with rfl | inside | rfl
    · decide
    · exact plain c inside
    · decide
  rw [words_text, words_plain command]
  rfl

theorem parent_and_pid_plain (plain : record.Plain) :
    parentAndPid numerals record.text = some ((record.ppid : Int), (record.pid : Int)) := by
  simp [parentAndPid, words_plain_text plain, fields_parent, int_decimal]

variable {table}

theorem stat_record {record : StatRecord} (member : record ∈ table.records) :
    table.stat record.pid = some record.text := by
  have found : (table.records.find? fun other => (other.pid : Int) = record.pid) = some record := by
    cases search : table.records.find? fun other => (other.pid : Int) = record.pid with
    | none =>
        have missing := List.find?_eq_none.mp search record member
        simp at missing
    | some other =>
        have same : other.pid = record.pid := by simpa using List.find?_some search
        have inside := List.mem_of_find?_eq_some search
        rw [List.inj_on_of_nodup_map table.distinct inside member same]
  rw [ProcessTable.stat, found]
  rfl

theorem stat_missing {pid : Int} (missing : ∀ record ∈ table.records, (record.pid : Int) ≠ pid) :
    table.stat pid = none := by
  have none_found : (table.records.find? fun other => (other.pid : Int) = pid) = none := by
    simpa [List.find?_eq_none] using missing
  rw [ProcessTable.stat, none_found]
  rfl

theorem seconds_plain (ticks : ℕ+) {record : StatRecord} (member : record ∈ table.records)
    (plain : record.Plain) : processCpuSecondsPid numerals table ticks record.pid =
      (record.cpuTicks : Rat) / (ticks : Nat) := by
  simp [processCpuSecondsPid, stat_record member, words_plain_text plain, fields_utime, fields_stime,
    int_decimal, StatRecord.cpuTicks]

theorem seconds_missing (ticks : ℕ+) {pid : Int}
    (missing : ∀ record ∈ table.records, (record.pid : Int) ≠ pid) :
    processCpuSecondsPid numerals table ticks pid = 0 := by
  simp [processCpuSecondsPid, stat_missing missing]

theorem children_plain (plain : ∀ record ∈ table.records, record.Plain) (parent child : Int) :
    child ∈ children numerals table parent ↔ Parent table parent child := by
  simp only [children, List.mem_map, List.mem_filter, List.mem_filterMap, Parent]
  constructor
  · intro listed
    obtain ⟨entry, ⟨⟨record, member, read⟩, above⟩, rfl⟩ := listed
    rw [parent_and_pid_plain numerals (plain record member), Option.some.injEq] at read
    subst read
    exact ⟨record, member, by simpa using above, rfl⟩
  · intro listed
    obtain ⟨record, member, above, below⟩ := listed
    have read := parent_and_pid_plain numerals (plain record member)
    exact ⟨_, ⟨⟨record, member, read⟩, by simpa using above⟩, below⟩

/-- The first field of a record is its pid, whatever the command is. -/
theorem children_inside (parent child : Int) (listed : child ∈ children numerals table parent) :
    child ∈ table.records.map fun record => (record.pid : Int) := by
  simp only [children, List.mem_map, List.mem_filter, List.mem_filterMap] at listed
  obtain ⟨entry, ⟨⟨record, member, read⟩, -⟩, rfl⟩ := listed
  apply List.mem_map.mpr
  refine ⟨record, member, ?_⟩
  simp only [parentAndPid, words_text, List.getElem?_cons_zero, int_decimal, Option.bind_eq_bind,
    Option.bind_some, Option.bind_eq_some_iff, Option.pure_def, Option.some.injEq] at read
  obtain ⟨-, -, parent, -, rfl⟩ := read
  rfl

theorem tree_plain (plain : ∀ record ∈ table.records, record.Plain) (root : Int) :
    ∃ pids, processTreePids numerals table root = some pids ∧ pids.Nodup ∧
      ∀ pid, pid ∈ pids ↔ Descendant table root pid := by
  have inside : ∀ parent, ∀ child ∈ children numerals table parent,
      child ∈ table.records.map fun record => (record.pid : Int) :=
    fun parent child => children_inside numerals parent child
  have search := close_over_reaches root inside
  rw [List.length_map] at search
  have edges : (fun parent child => child ∈ children numerals table parent) = Parent table := by
    funext parent child
    exact propext (children_plain numerals plain parent child)
  simp only [Reaches, edges] at search
  exact search

/-- The sum over the pids of a tree is that over its records: a pid without a record is read as
no time at all. -/
theorem sum_of_pids {time : Int → Rat} {cost : StatRecord → Rat} {pids : List Int}
    (distinct : pids.Nodup) (inside : StatRecord → Prop) [DecidablePred inside]
    (members : ∀ record ∈ table.records, (record.pid : Int) ∈ pids ↔ inside record)
    (present : ∀ record ∈ table.records, time record.pid = cost record)
    (missing : ∀ pid, (∀ record ∈ table.records, (record.pid : Int) ≠ pid) → time pid = 0) :
    (pids.map time).sum = ((table.records.filter inside).map cost).sum := by
  have listed : ((table.records.filter inside).map fun record => (record.pid : Int)).Nodup := by
    have ints := table.distinct.map Int.ofNat_injective
    rw [List.map_map] at ints
    exact ints.sublist (List.filter_sublist.map _)
  have costs : (table.records.filter inside).map cost =
      ((table.records.filter inside).map fun record => (record.pid : Int)).map time := by
    rw [List.map_map]
    apply List.map_congr_left
    intro record member
    exact (present record (List.mem_of_mem_filter member)).symm
  rw [costs, ← List.sum_toFinset time distinct, ← List.sum_toFinset time listed]
  symm
  apply Finset.sum_subset
  · intro pid member
    simp only [List.mem_toFinset, List.mem_map, List.mem_filter, decide_eq_true_eq] at member ⊢
    obtain ⟨record, ⟨here, holds⟩, rfl⟩ := member
    exact (members record here).mpr holds
  · intro pid member outside
    apply missing
    intro record here same
    apply outside
    rw [List.mem_toFinset, ← same] at member ⊢
    apply List.mem_map_of_mem
    simp [here, (members record here).mp member]

theorem sum_of_ticks (list : List StatRecord) (ticks : Nat) :
    (list.map fun record => (record.cpuTicks : Rat) / ticks).sum =
      ((list.map StatRecord.cpuTicks).sum : Nat) / ticks := by
  induction list with
  | nil => simp
  | cons record list ih => simp [ih, add_div]

theorem exact_plain (plain : ∀ record ∈ table.records, record.Plain) (ticks : ℕ+) (root : Int) :
    Exact numerals table ticks root := by
  obtain ⟨pids, run, distinct, members⟩ := tree_plain numerals plain root
  have seconds : ∀ record ∈ table.records, processCpuSecondsPid numerals table ticks record.pid =
      (record.cpuTicks : Rat) / (ticks : Nat) :=
    fun record member => seconds_plain numerals ticks member (plain record member)
  constructor
  · exact ⟨pids, run, distinct, members⟩
  · classical
    have sum := sum_of_pids distinct (fun record => Descendant table root record.pid)
      (fun record _ => members record.pid) seconds fun pid => seconds_missing numerals ticks
    rw [processCpuTree, run, Option.map_some, sum, sum_of_ticks]
    rfl
  · intro record member _
    exact ⟨⟨_, read_proc_stat_text record numerals⟩, seconds record member⟩

/-! ## Commands with white space -/

theorem words_spaced (spaced : ¬record.Plain) :
    2 ≤ (words ('(' :: record.comm ++ [')'])).length := by
  simp only [StatRecord.Plain, not_forall] at spaced
  obtain ⟨c, member, white⟩ := spaced
  rw [Bool.not_eq_false] at white
  obtain ⟨front, back, split⟩ := List.append_of_mem member
  have cut : '(' :: record.comm ++ [')'] = ('(' :: front) ++ c :: (back ++ [')']) := by
    simp [split]
  have left : words ('(' :: front) ≠ [] := words_black (List.mem_cons_self ..) (by decide)
  have right : words (back ++ [')']) ≠ [] := words_black (c := ')') (by simp) (by decide)
  rw [cut, words_append white, List.length_append]
  have := List.length_pos_iff.mpr left
  have := List.length_pos_iff.mpr right
  omega

variable (record table)

/-- The same process after one more tick of system time, if its command has white space. -/
def StatRecord.later : StatRecord :=
  if record.Plain then record else { record with stime := record.stime + 1 }

theorem later_pid : record.later.pid = record.pid := by
  unfold StatRecord.later
  split <;> rfl

theorem later_ppid : record.later.ppid = record.ppid := by
  unfold StatRecord.later
  split <;> rfl

theorem later_comm : record.later.comm = record.comm := by
  unfold StatRecord.later
  split <;> rfl

theorem later_ticks :
    record.later.cpuTicks = record.cpuTicks + if record.Plain then 0 else 1 := by
  unfold StatRecord.later
  split
  · rfl
  · simp [StatRecord.cpuTicks, Nat.add_assoc]

/-- The fields behind the command, up to the user time. -/
theorem take_fields {count : Nat} (bound : count ≤ 12) : record.fields.take count =
    ([record.state] :: decimal record.ppid :: record.untilTimes.map decimalInt ++
      [decimal record.utime]).take count := by
  have split : record.fields = ([record.state] :: decimal record.ppid ::
      record.untilTimes.map decimalInt ++ [decimal record.utime]) ++
      (decimal record.stime :: record.untilRss.map decimalInt ++
        decimal record.rss :: record.rest.map decimalInt) := by
    simp [StatRecord.fields]
  rw [split, List.take_append_of_le_length]
  simpa [record.nine] using bound

/-- The two words that the benchmark reads are in front of the system time of a process whose
command has white space in it. -/
theorem later_words : (words record.later.text).take 15 = (words record.text).take 15 := by
  unfold StatRecord.later
  split
  · rfl
  · rename_i spaced
    have length := words_spaced spaced
    have bound :
        15 - (decimal record.pid :: words ('(' :: record.comm ++ [')'])).length ≤ 12 := by
      rw [List.length_cons]
      omega
    rw [words_text, words_text, ← List.cons_append, ← List.cons_append, List.take_append,
      List.take_append, take_fields _ bound, take_fields _ bound]

theorem same_word {before after : List (List Char)} (same : after.take 15 = before.take 15)
    {index : Nat} (bound : index < 15) : after[index]? = before[index]? := by
  rw [← List.getElem?_take_of_lt bound, same, List.getElem?_take_of_lt bound]

theorem later_parent : parentAndPid numerals record.later.text = parentAndPid numerals record.text := by
  have same := later_words record
  simp only [parentAndPid, same_word same (by decide : 0 < 15), same_word same (by decide : 3 < 15)]

def ProcessTable.later : ProcessTable where
  records := table.records.map StatRecord.later
  distinct := by
    rw [List.map_map]
    simpa only [Function.comp_def, later_pid] using table.distinct

theorem later_children : children numerals table.later = children numerals table := by
  have read : (fun record : StatRecord => parentAndPid numerals record.text) ∘ StatRecord.later =
      fun record => parentAndPid numerals record.text := by
    funext record
    rw [Function.comp_apply, later_parent]
  have entries : (table.later.records.filterMap fun record => parentAndPid numerals record.text) =
      table.records.filterMap fun record => parentAndPid numerals record.text := by
    rw [ProcessTable.later, List.filterMap_map, read]
  funext parent
  unfold children
  rw [entries]

theorem later_stat (pid : Int) : ((table.later.stat pid).map fun text => (words text).take 15) =
    (table.stat pid).map fun text => (words text).take 15 := by
  simp only [ProcessTable.stat, ProcessTable.later, List.find?_map, Function.comp_def, later_pid,
    Option.map_map, later_words]

theorem later_seconds (ticks : ℕ+) (pid : Int) :
    processCpuSecondsPid numerals table.later ticks pid =
      processCpuSecondsPid numerals table ticks pid := by
  have same := later_stat table pid
  unfold processCpuSecondsPid
  cases before : table.stat pid with
  | none =>
      rw [before] at same
      have missing : table.later.stat pid = none := by simpa using same
      rw [missing]
  | some text =>
      rw [before] at same
      obtain ⟨newer, found, words⟩ := Option.map_eq_some_iff.mp same
      simp only [found, Option.bind_eq_bind, Option.bind_some,
        same_word words (by decide : 13 < 15), same_word words (by decide : 14 < 15)]

theorem later_parents : Parent table.later = Parent table := by
  funext parent child
  simp only [Parent, ProcessTable.later, List.mem_map, exists_exists_and_eq_and, later_pid,
    later_ppid]

theorem later_tree (root : Int) :
    processTreePids numerals table.later root = processTreePids numerals table root := by
  rw [processTreePids, processTreePids, later_children]
  simp only [ProcessTable.later, List.length_map]

theorem later_cpu (ticks : ℕ+) (root : Int) :
    processCpuTree numerals table.later ticks root = processCpuTree numerals table ticks root := by
  have seconds : processCpuSecondsPid numerals table.later ticks =
      processCpuSecondsPid numerals table ticks := by
    funext pid
    exact later_seconds numerals table ticks pid
  rw [processCpuTree, processCpuTree, later_tree, seconds]

/-- The tick that is not seen. -/
theorem later_more {record : StatRecord} (member : record ∈ table.records)
    (spaced : ¬record.Plain) : table.cpuTicks record.pid < table.later.cpuTicks record.pid := by
  classical
  have same : table.later.cpuTicks record.pid =
      ((table.records.filter fun other => Descendant table record.pid other.pid).map
        fun other => other.later.cpuTicks).sum := by
    simp only [ProcessTable.cpuTicks, Descendant, later_parents]
    simp only [ProcessTable.later, List.filter_map, List.map_map, Function.comp_def, later_pid]
    congr
  rw [same]
  apply List.sum_lt_sum
  · intro other _
    rw [later_ticks]
    exact Nat.le_add_right _ _
  · refine ⟨record, ?_, ?_⟩
    · simp [member, Descendant, Relation.ReflTransGen.refl]
    · rw [later_ticks, if_neg spaced]
      exact Nat.lt_succ_self _

/-! ## When the accounting is exact -/

def ProcessTable.identities : List (Nat × List Char) :=
  table.records.map fun record => (record.pid, record.comm)

theorem accounting_exact_iff :
    (∀ other : ProcessTable, other.identities = table.identities →
        ∀ ticks root, Exact numerals other ticks root) ↔
      ∀ record ∈ table.records, ∀ c ∈ record.comm, isWhiteSpace c = false := by
  constructor
  · intro exact_all
    by_contra unread
    obtain ⟨record, member, spaced⟩ : ∃ record ∈ table.records, ¬record.Plain := by
      simpa [StatRecord.Plain] using unread
    have same : table.later.identities = table.identities := by
      simp only [ProcessTable.identities, ProcessTable.later, List.map_map, Function.comp_def,
        later_pid, later_comm]
    have before := (exact_all table rfl 1 record.pid).cpu
    have after := (exact_all table.later same 1 record.pid).cpu
    rw [later_cpu, before, Option.some.injEq] at after
    have more := later_more table member spaced
    have equal : table.cpuTicks record.pid = table.later.cpuTicks record.pid := by
      simpa using after
    omega
  · intro plain other same ticks root
    apply exact_plain
    intro record member
    have listed : (record.pid, record.comm) ∈ table.identities := by
      rw [← same]
      exact List.mem_map.mpr ⟨record, member, rfl⟩
    obtain ⟨old, inside, equal⟩ := List.mem_map.mp listed
    rw [Prod.mk.injEq] at equal
    intro c found
    exact plain old inside c (equal.2 ▸ found)

/-- A child `a b` of process 10, with 5 ticks of user time and 2 of system time. -/
def spacedTable : ProcessTable where
  records :=
    [{ pid := 10, comm := ['x'], state := 'S', ppid := 1, untilTimes := List.replicate 9 0, utime := 3,
       stime := 4, untilRss := List.replicate 8 0, rss := 1, rest := [], letter := by decide,
       nine := by decide, eight := by decide },
     { pid := 11, comm := ['a', ' ', 'b'], state := 'S', ppid := 10,
       untilTimes := List.replicate 9 0, utime := 5, stime := 2, untilRss := List.replicate 8 0, rss := 1,
       rest := [], letter := by decide, nine := by decide, eight := by decide }]
  distinct := by decide

def asciiNumerals : Numerals := ⟨fun _ => none⟩

theorem spaced_command_lost : ¬∀ (numerals : Numerals) (table : ProcessTable) (ticks : ℕ+)
    (root : Int), Exact numerals table ticks root := by
  intro exact_all
  obtain ⟨pids, run, -, members⟩ := (exact_all asciiNumerals spacedTable 100 10).tree
  have found : processTreePids asciiNumerals spacedTable 10 = some [10] := by decide +kernel
  rw [found, Option.some.injEq] at run
  have edge : Parent spacedTable 10 11 := by
    simp [Parent, spacedTable]
  have listed := (members 11).mpr (Relation.ReflTransGen.single edge)
  rw [← run] at listed
  contradiction

end XrdpConsole.ProcessTree
