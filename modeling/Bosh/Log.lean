import Bosh.Library.Effect
import Bosh.Library.Text
import Bosh.Server.State
import Mathlib.Logic.Function.Basic

/-! The log of `log.c`: lines go to a file, which is renamed and opened anew once it has
grown to the rotation size, or to standard output where no file can be opened. -/
namespace Bosh
open Effect Text

inductive LogLevel where
  | debug
  | info
  | warning
  | error
  deriving DecidableEq

namespace LogLevel

def value : LogLevel → Nat
  | .debug => 0
  | .info => 1
  | .warning => 2
  | .error => 3

def verboseName : LogLevel → Bytes
  | .debug => ascii "DEBUG"
  | .info => ascii "INFO"
  | .warning => ascii "WARNING"
  | .error => ascii "ERROR"

end LogLevel

inductive LogStream where
  | stdout
  | stderr
  | file (name : Bytes)
  deriving DecidableEq

structure LogConf where
  filename : Option Bytes := none
  file : Option LogStream := none
  rotateSize : UInt64 := 0
  compressionCommand : Option Bytes := none
  level : LogLevel := .error

structure Logger where
  conf : LogConf := {}
  files : Bytes → Option Bytes
  stdout : Bytes := []
  stderr : Bytes := []

/-- What the system answers during a call: the time in both formats, whether `rename`
succeeds, the error of `fopen` if it fails, and the position of standard error. -/
structure LogAnswers where
  stamp : Bytes
  date : Bytes
  renames : Bool := true
  refusal : Option Bytes := none
  position : Int := -1

/-- A call of `log`; `text` is its format with the arguments filled in. -/
structure LogCall where
  functionName : Bytes
  level : LogLevel
  text : Bytes
  answers : LogAnswers

abbrev LogProgram := Program Logger Fault

namespace Logger

def setLevel (level : LogLevel) (s : Logger) : Logger :=
  { s with conf := { s.conf with level := level } }

def complain (text : Bytes) (s : Logger) : Logger := { s with stderr := s.stderr ++ text }

def print (stream : LogStream) (text : Bytes) (s : Logger) : Logger :=
  match stream with
  | .stdout => { s with stdout := s.stdout ++ text }
  | .stderr => s.complain text
  | .file name =>
    { s with files := Function.update s.files name (some ((s.files name).getD [] ++ text)) }

/-- `ftell` on a stream that has just been flushed. -/
def ftell (s : Logger) (stream : LogStream) (position : Int) : Int :=
  match stream with
  | .file name =>
    let size := ((s.files name).getD []).length
    if size < 2 ^ 63 then size else -1
  | _ => position

def rename (old new : Bytes) (s : Logger) : Logger :=
  match s.files old with
  | none => s
  | some content =>
    { s with files := Function.update (Function.update s.files new (some content)) old none }

@[simp] theorem rename_conf (old new : Bytes) (s : Logger) :
    (s.rename old new).conf = s.conf := by
  unfold rename
  split <;> rfl

@[simp] theorem rename_files_old (old new : Bytes) (s : Logger) :
    (s.rename old new).files old = none := by
  unfold rename
  split
  · assumption
  · exact Function.update_self ..

end Logger

/-- Open a file to append to it; both places that do go on with standard output if that
fails. -/
def openLog (filename : Bytes) (refusal : Option Bytes) : LogProgram Unit :=
  match refusal with
  | none => modify fun s =>
      { s with
        conf  := { s.conf with file := some (.file filename) }
        files := Function.update s.files filename (some ((s.files filename).getD [])) }
  | some error => modify fun s =>
      let s := s.complain
        (ascii "Could not open " ++ filename ++ ascii ": " ++ error ++ ascii "\n")
      { s with conf := { s.conf with file := some .stdout } }

def logSetFile (filename refusal : Option Bytes) : LogProgram Unit := do
  modify fun s => { s with conf := { s.conf with filename := none } }
  match filename with
  | none => modify fun s =>
      let s := s.complain (ascii "No log file defined, log is set to standard output\n")
      { s with conf := { s.conf with file := some .stdout } }
  | some name => do
    openLog name refusal
    if refusal = none then
      modify fun s => { s with conf := { s.conf with filename := some name } }

def rotateUnit (unit : UInt8) : Option UInt64 :=
  let lower := if 65 ≤ unit ∧ unit ≤ 90 then unit + 32 else unit
  if [lower] = ascii "b" then some 1
  else if [lower] = ascii "k" then some ((1 : UInt64) <<< 10)
  else if [lower] = ascii "m" then some ((1 : UInt64) <<< 20)
  else if [lower] = ascii "g" then some ((1 : UInt64) <<< 30)
  else none

def rotateBytes (text : Bytes) : Option UInt64 := do
  let (size, rest) ← scanUInt64 text
  let unit ← (rest.dropWhile isSpace).head?
  let factor ← rotateUnit unit
  some (size * factor)

def logSetRotate (rotateSize rotateCommand : Option Bytes) : LogProgram Unit := do
  modify fun s =>
    let command := if rotateCommand = some [] then none else rotateCommand
    { s with conf := { s.conf with compressionCommand := command } }
  match rotateSize with
  | none => throw .nullPointer
  | some text =>
    match rotateBytes text with
    | some size => modify fun s => { s with conf := { s.conf with rotateSize := size } }
    | none => modify fun s =>
      let s := s.complain (ascii "Unable to parse rotate size, log rotation is disabled\n")
      { s with conf := { s.conf with rotateSize := 0 } }

/-- `log_rotate`. Its file name is not checked, and a failed `rename` is not noticed. -/
def logRotate (answers : LogAnswers) : LogProgram Unit := do
  modify fun s => { s with conf := { s.conf with file := none } }
  let filename ← demand (·.conf.filename) .nullPointer
  if answers.renames then
    modify (·.rename filename (filename ++ ascii "-" ++ answers.date))
  openLog filename answers.refusal

namespace LogCall

def line (call : LogCall) : Bytes :=
  call.answers.stamp ++ ascii " " ++ call.functionName ++ ascii " " ++ call.level.verboseName ++
    ascii ": " ++ call.text ++ ascii "\n"

end LogCall

def log (call : LogCall) : LogProgram Unit := do
  if (← get).conf.level.value ≤ call.level.value then
    modify fun s => match s.conf.file with
      | some _ => s
      | none =>
        let s := s.complain (ascii "Log output not set.\n")
        { s with conf := { s.conf with file := some .stderr } }
    let file ← demand (·.conf.file) .nullPointer
    modify (·.print file call.line)
    let s ← get
    let position := s.ftell file call.answers.position
    if file ≠ .stdout ∧ 0 < s.conf.rotateSize ∧ s.conf.rotateSize.toNat ≤ toSize position then
      logRotate call.answers

def verboseLevel (level : Option Bytes) : LogLevel :=
  match level with
  | none => .error
  | some text =>
    if text = ascii "ERROR" then .error
    else if text = ascii "WARNING" then .warning
    else if text = ascii "INFO" then .info
    else if text = ascii "DEBUG" then .debug
    else .error

def levelCall (level : LogLevel) (answers : LogAnswers) : LogCall where
  functionName := ascii "log_set_verbose"
  level := .info
  text := ascii "Set log level to " ++ decimal level.value
  answers := answers

def logSetVerbose (level : Option Bytes) (answers : LogAnswers) : LogProgram Unit := do
  modify (·.setLevel (verboseLevel level))
  log (levelCall (verboseLevel level) answers)

section Iksemel
variable {Iks : Type} [Iksemel Iks]

def logAttrib (config : Iks) (name : String) : Option Bytes :=
  (Iksemel.findAttrib config name).map (·.bytes)

def logInit (config : Iks) (refusal : Option Bytes) (answers : LogAnswers) : LogProgram Unit := do
  logSetFile (logAttrib config "filename") refusal
  logSetRotate (logAttrib config "rotate_size") (logAttrib config "compression_command")
  logSetVerbose (logAttrib config "verbose") answers

end Iksemel

/-- The lines of a log: of each file set aside under its name, of the file they go to now, and
on standard output. What the file held before counts as one line. -/
structure Journal where
  aside : List (Bytes × List Bytes)
  last : List Bytes
  printed : List Bytes

theorem dated_ne (name date : Bytes) : name ++ ascii "-" ++ date ≠ name := by
  intro same
  have := congrArg List.length same
  simp [ascii] at this

namespace Journal

def lines (j : Journal) : List Bytes := j.aside.flatMap Prod.snd ++ j.last ++ j.printed

/-- A later file replaces an earlier one of the same name. -/
def content (j : Journal) (name : Bytes) : Option Bytes :=
  (j.aside.reverse.find? fun file => file.1 = name).map fun file => file.2.flatten

def setAside (j : Journal) (name : Bytes) : Journal where
  aside := j.aside ++ [(name, j.last)]
  last := []
  printed := j.printed

@[simp] theorem lines_setAside {j : Journal} (onFile : j.printed = []) (name : Bytes) :
    (j.setAside name).lines = j.lines := by
  simp [lines, setAside, onFile]

theorem content_setAside (j : Journal) (name name' : Bytes) :
    (j.setAside name).content name' =
      if name = name' then some j.last.flatten else j.content name' := by
  simp only [content, setAside, List.reverse_append, List.reverse_singleton, List.singleton_append,
    List.find?_cons]
  split <;> split <;> simp_all

theorem content_of_fresh {j : Journal} (fresh : (j.aside.map Prod.fst).Nodup)
    {file : Bytes × List Bytes} (member : file ∈ j.aside) :
    j.content file.1 = some file.2.flatten := by
  have found : (j.aside.reverse.find? fun other => other.1 = file.1).isSome := by
    simp only [List.find?_isSome, List.mem_reverse, decide_eq_true_eq]
    exact ⟨file, member, rfl⟩
  obtain ⟨other, here⟩ := Option.isSome_iff_exists.mp found
  have same : other = file := List.inj_on_of_nodup_map fresh
    (List.mem_reverse.mp (List.mem_of_find?_eq_some here)) member (by simpa using List.find?_some here)
  rw [content, here, same]
  rfl

def Grown (name : Bytes) (dates : List Bytes) (j j' : Journal) : Prop :=
  ∃ used : List Bytes, used.Sublist dates ∧
    j'.aside.map Prod.fst = j.aside.map Prod.fst ++ used.map fun date => name ++ ascii "-" ++ date

variable {name : Bytes} {dates dates' : List Bytes} {j j' j'' : Journal}

theorem Grown.of_same (same : j'.aside = j.aside) : Grown name dates j j' :=
  ⟨[], List.nil_sublist _, by simp [same]⟩

theorem Grown.setAside (date : Bytes) : Grown name [date] j (j.setAside (name ++ ascii "-" ++ date)) :=
  ⟨[date], List.Sublist.refl _, by simp [Journal.setAside]⟩

theorem Grown.trans (grown : Grown name dates j j') (grown' : Grown name dates' j' j'') :
    Grown name (dates ++ dates') j j'' := by
  obtain ⟨used, few, names⟩ := grown
  obtain ⟨used', few', names'⟩ := grown'
  exact ⟨used ++ used', few.append few', by simp [names', names]⟩

end Journal

/-- The files and the output of `before` with the lines of a journal; whatever was set aside
had grown to the rotation size. -/
structure Logger.Holds (s : Logger) (name : Bytes) (before : Logger) (j : Journal) : Prop where
  aside : ∀ other ≠ name, s.files other = (j.content other).or (before.files other)
  last : (s.files name).getD [] = j.last.flatten
  printed : s.stdout = before.stdout ++ j.printed.flatten
  full : ∀ file ∈ j.aside, 0 < s.conf.rotateSize ∧
    min s.conf.rotateSize.toNat (2 ^ 63) ≤ file.2.flatten.length

/-- The log holds a journal and goes on with it: once on standard output, it stays there. -/
structure Logger.Shows (s : Logger) (name : Bytes) (before : Logger) (j : Journal) : Prop
    extends s.Holds name before j where
  goes : s.conf.file = some .stdout ∨
    s.conf.file = some (.file name) ∧ s.conf.filename = some name ∧ j.printed = []

/-- Unless two of them have the same date, the files that have been set aside are there as they
were. -/
theorem Logger.Shows.recovered {name : Bytes} {before s : Logger} {j : Journal} {used : List Bytes}
    (shows : s.Shows name before j)
    (names : j.aside.map Prod.fst = used.map fun date => name ++ ascii "-" ++ date)
    (fresh : used.Nodup) : ∀ file ∈ j.aside, s.files file.1 = some file.2.flatten := by
  intro file member
  have distinct : (j.aside.map Prod.fst).Nodup := by
    rw [names]
    exact fresh.map (List.append_right_injective _)
  obtain ⟨date, -, dated⟩ := List.mem_map.mp (names ▸ List.mem_map_of_mem (f := Prod.fst) member)
  have foreign : file.1 ≠ name := dated ▸ dated_ne name date
  rw [shows.aside file.1 foreign, Journal.content_of_fresh distinct member]
  rfl

def Logger.Same (s s' : Logger) : Prop :=
  s'.conf.rotateSize = s.conf.rotateSize ∧ s'.conf.level = s.conf.level

def Logger.Trim (s : Logger) (name : Bytes) : Prop :=
  s.conf.file = some .stdout ∨ ((s.files name).getD []).length < s.conf.rotateSize.toNat

def LogAnswers.Calm (answers : LogAnswers) : Prop := answers.renames = true ∧ answers.refusal = none

def logged (threshold : LogLevel) (calls : List LogCall) : List Bytes :=
  (calls.filter fun call => threshold.value ≤ call.level.value).map LogCall.line

theorem logged_cons (threshold : LogLevel) (call : LogCall) (calls : List LogCall) :
    logged threshold (call :: calls) = logged threshold [call] ++ logged threshold calls := by
  simp only [logged, ← List.map_append, ← List.filter_append, List.singleton_append]

def logCalls (calls : List LogCall) : LogProgram Unit := calls.forM log

namespace Logger.Holds
variable {name : Bytes} {before s : Logger} {j : Journal}

theorem print (holds : s.Holds name before j) (line : Bytes) :
    (s.print (.file name) line).Holds name before { j with last := j.last ++ [line] } where
  aside := fun other foreign =>
    (Function.update_of_ne foreign _ _).trans (holds.aside other foreign)
  last := by simp [Logger.print, holds.last]
  printed := holds.printed
  full := holds.full

theorem rename (holds : s.Holds name before j) {content : Bytes}
    (here : s.files name = some content) (onFile : j.printed = []) (on : 0 < s.conf.rotateSize)
    (grown : min s.conf.rotateSize.toNat (2 ^ 63) ≤ content.length) (date : Bytes) :
    (s.rename name (name ++ ascii "-" ++ date)).Holds name before
      (j.setAside (name ++ ascii "-" ++ date)) := by
  have last : content = j.last.flatten := by simpa [here] using holds.last
  simp only [Logger.rename, here]
  refine ⟨fun other foreign' => ?_, by simp [Journal.setAside], ?_, ?_⟩
  · dsimp only
    rw [Function.update_of_ne foreign', Journal.content_setAside]
    by_cases same : name ++ ascii "-" ++ date = other
    · rw [← same, Function.update_self, if_pos rfl, last]
      rfl
    · rw [Function.update_of_ne (Ne.symm same), if_neg same]
      exact holds.aside other foreign'
  · rw [Journal.setAside, onFile]
    simpa [onFile] using holds.printed
  · intro file member
    rcases List.mem_append.mp member with member | member
    · exact holds.full file member
    · rw [List.mem_singleton.mp member, ← last]
      exact ⟨on, grown⟩

theorem openLog (holds : s.Holds name before j) (there : s.conf.filename = some name)
    (onFile : j.printed = []) (refusal : Option Bytes) :
    Ensures (openLog name refusal s) (fun _ s' => s'.Shows name before j ∧ s.Same s' ∧
      (s'.files name).getD [] = (s.files name).getD []) fun _ => False := by
  cases refusal with
  | some error =>
    refine ⟨⟨⟨holds.aside, holds.last, holds.printed, holds.full⟩, .inl rfl⟩,
      ⟨rfl, rfl⟩, rfl⟩
  | none =>
    refine ⟨⟨⟨fun other foreign => ?_, ?_, holds.printed, holds.full⟩,
      .inr ⟨rfl, there, onFile⟩⟩, ⟨rfl, rfl⟩, ?_⟩
    · exact (Function.update_of_ne foreign _ _).trans (holds.aside other foreign)
    · simpa using holds.last
    · simp

end Logger.Holds

/-- A file past what `ftell` can tell counts as full, too. -/
theorem Logger.ftell_grown {s : Logger} {name content : Bytes} (here : s.files name = some content)
    (size : UInt64) (position : Int) :
    size.toNat ≤ toSize (s.ftell (.file name) position) ↔
      min size.toNat (2 ^ 63) ≤ content.length := by
  have bound := size.toNat_lt
  simp only [ftell, here, Option.getD_some]
  split
  · rw [toSize_of_nonneg (by omega) (by omega)]
    omega
  · have top : toSize (-1) = 2 ^ 64 - 1 := by decide
    omega

section Writing
variable {name : Bytes} {before s : Logger} {j : Journal}

theorem logRotate_shows (holds : s.Holds name before j) (there : s.conf.filename = some name)
    {content : Bytes} (here : s.files name = some content) (onFile : j.printed = [])
    (on : 0 < s.conf.rotateSize)
    (grown : min s.conf.rotateSize.toNat (2 ^ 63) ≤ content.length) (answers : LogAnswers) :
    Ensures (logRotate answers s) (fun _ s' => s.Same s' ∧
      (∃ j', s'.Shows name before j' ∧ j'.lines = j.lines ∧ j.Grown name [answers.date] j') ∧
      (answers.Calm → (s'.files name).getD [] = [])) fun _ => False := by
  rw [logRotate, ensures_bind, ensures_modify, ensures_bind, ensures_demand]
  refine ⟨fun filename found => ?_, fun missing => nomatch there.symm.trans missing⟩
  obtain rfl : name = filename := Option.some.inj (there.symm.trans found)
  have closed : ({ s with conf := { s.conf with file := none } } : Logger).Holds name before j :=
    ⟨holds.aside, holds.last, holds.printed, holds.full⟩
  by_cases renames : answers.renames = true
  · rw [if_pos renames, ensures_bind, ensures_modify]
    have moved := closed.rename here onFile on grown answers.date
    refine (moved.openLog (by simpa using there) onFile answers.refusal).mono ?_ fun _ => id
    rintro _ s' ⟨shows, ⟨sameSize, sameLevel⟩, file⟩
    refine ⟨⟨by simpa using sameSize, by simpa using sameLevel⟩,
      ⟨_, shows, Journal.lines_setAside onFile _, .setAside _⟩, fun _ => ?_⟩
    rw [file, Logger.rename_files_old]
    rfl
  · rw [if_neg renames]
    refine (closed.openLog there onFile answers.refusal).mono ?_ fun _ => id
    rintro _ s' ⟨shows, same, -⟩
    exact ⟨same, ⟨j, shows, rfl, .of_same rfl⟩, fun calm => absurd calm.1 renames⟩

theorem log_onStdout (onOut : s.conf.file = some .stdout) (call : LogCall) :
    Ensures (log call s) (fun _ s' =>
      s' = s.print .stdout (logged s.conf.level [call]).flatten) fun _ => False := by
  unfold log
  rw [ensures_bind, ensures_get]
  by_cases loud : s.conf.level.value ≤ call.level.value
  case neg =>
    have quiet : logged s.conf.level [call] = [] := by simp [logged, loud]
    rw [if_neg loud, ensures_pure, quiet]
    simp [Logger.print]
  have told : logged s.conf.level [call] = [call.line] := by simp [logged, loud]
  rw [if_pos loud, told, ensures_bind, ensures_modify, ensures_bind, ensures_demand]
  simp only [onOut]
  refine ⟨fun file found => ?_, nofun⟩
  obtain rfl := Option.some.inj found
  rw [ensures_bind, ensures_modify, ensures_bind, ensures_get, if_neg fun rotates => rotates.1 rfl,
    ensures_pure, List.flatten_singleton]

/-- A line below the level of the log is not written; any other is written once, after
all earlier ones. -/
theorem log_shows (shows : s.Shows name before j) (call : LogCall) :
    Ensures (log call s) (fun _ s' => s.Same s' ∧
      (∃ j', s'.Shows name before j' ∧ j'.lines = j.lines ++ logged s.conf.level [call] ∧
        j.Grown name [call.answers.date] j') ∧
      (call.answers.Calm → 0 < s.conf.rotateSize →
        (logged s.conf.level [call] ≠ [] ∨ s.Trim name) → s'.Trim name)) fun _ => False := by
  obtain onOut | ⟨onFile, there, unprinted⟩ := shows.goes
  · refine (log_onStdout onOut call).mono ?_ fun _ => id
    rintro _ _ rfl
    have printed : (s.print .stdout (logged s.conf.level [call]).flatten).Shows name before
        { j with printed := j.printed ++ logged s.conf.level [call] } :=
      ⟨⟨shows.aside, shows.last, by simp [Logger.print, shows.printed], shows.full⟩,
        .inl onOut⟩
    exact ⟨⟨rfl, rfl⟩, ⟨_, printed, by simp [Journal.lines], .of_same rfl⟩,
      fun _ _ _ => .inl onOut⟩
  unfold log
  rw [ensures_bind, ensures_get]
  by_cases loud : s.conf.level.value ≤ call.level.value
  case neg =>
    rw [if_neg loud, ensures_pure]
    have quiet : logged s.conf.level [call] = [] := by simp [logged, loud]
    exact ⟨⟨rfl, rfl⟩, ⟨j, shows, by rw [quiet, List.append_nil], .of_same rfl⟩,
      fun _ _ trim => trim.resolve_left fun told => told quiet⟩
  have told : logged s.conf.level [call] = [call.line] := by simp [logged, loud]
  rw [if_pos loud, told, ensures_bind, ensures_modify, ensures_bind, ensures_demand]
  simp only [onFile]
  refine ⟨fun file found => ?_, nofun⟩
  obtain rfl := Option.some.inj found
  have written := shows.print call.line
  have lines : Journal.lines { j with last := j.last ++ [call.line] } = j.lines ++ [call.line] := by
    simp [Journal.lines, unprinted]
  have here : (s.print (.file name) call.line).files name =
      some ((s.files name).getD [] ++ call.line) := Function.update_self ..
  rw [ensures_bind, ensures_modify, ensures_bind, ensures_get]
  split
  case isTrue rotates =>
    obtain ⟨-, on, grown⟩ := rotates
    refine (logRotate_shows written there here unprinted on ((Logger.ftell_grown here _ _).mp grown)
      call.answers).mono ?_ fun _ => id
    rintro _ s' ⟨same, ⟨j', shows', kept, grown'⟩, emptied⟩
    refine ⟨same, ⟨j', shows', kept.trans lines, grown'⟩, fun calm on _ => .inr ?_⟩
    rw [emptied calm, same.1]
    exact on
  case isFalse stays =>
    refine ⟨⟨rfl, rfl⟩, ⟨_, ⟨written, .inr ⟨onFile, there, unprinted⟩⟩, lines, .of_same rfl⟩,
      fun _ on _ => .inr ?_⟩
    have short : ¬ min s.conf.rotateSize.toNat (2 ^ 63) ≤
        ((s.files name).getD [] ++ call.line).length := fun grown =>
      stays ⟨nofun, on, (Logger.ftell_grown here _ _).mpr grown⟩
    rw [here, Option.getD_some]
    change _ < s.conf.rotateSize.toNat
    omega

theorem logCalls_shows (calls : List LogCall) {s : Logger} {j : Journal}
    (shows : s.Shows name before j) :
    Ensures (logCalls calls s) (fun _ s' => s.Same s' ∧
      (∃ j', s'.Shows name before j' ∧ j'.lines = j.lines ++ logged s.conf.level calls ∧
        j.Grown name (calls.map fun call => call.answers.date) j') ∧
      ((∀ call ∈ calls, call.answers.Calm) → 0 < s.conf.rotateSize →
        (logged s.conf.level calls ≠ [] ∨ s.Trim name) → s'.Trim name)) fun _ => False := by
  induction calls generalizing s j with
  | nil =>
    exact ⟨⟨rfl, rfl⟩, ⟨j, shows, (List.append_nil _).symm, .of_same rfl⟩,
      fun _ _ trim => trim.resolve_left fun told => told rfl⟩
  | cons call calls ih =>
    unfold logCalls at ih ⊢
    rw [List.forM_eq_forM, List.forM_cons, ensures_bind]
    refine (log_shows shows call).mono ?_ fun _ => id
    rintro _ s' ⟨⟨size, level⟩, ⟨j', shows', told, grown⟩, trim⟩
    refine (ih shows').mono ?_ fun _ => id
    rintro _ s'' ⟨⟨size', level'⟩, ⟨j'', shows'', told', grown'⟩, trim'⟩
    rw [level] at told' trim'
    rw [logged_cons]
    refine ⟨⟨size'.trans size, level'.trans level⟩, ⟨j'', shows'', ?_, grown.trans grown'⟩,
      fun calm on once => ?_⟩
    · rw [told', told, List.append_assoc]
    · obtain ⟨calmly, calm⟩ := List.forall_mem_cons.mp calm
      refine trim' calm (size ▸ on) ?_
      by_cases silent : logged s.conf.level calls = []
      · rw [silent, List.append_nil] at once
        exact .inr (trim calmly on once)
      · exact .inl silent

theorem logCalls_onStdout (calls : List LogCall) {s : Logger} (onOut : s.conf.file = some .stdout) :
    Ensures (logCalls calls s) (fun _ s' =>
      s' = s.print .stdout (logged s.conf.level calls).flatten) fun _ => False := by
  induction calls generalizing s with
  | nil =>
    rw [logCalls, List.forM_eq_forM, List.forM_nil, ensures_pure]
    simp [logged, Logger.print]
  | cons call calls ih =>
    unfold logCalls at ih ⊢
    rw [List.forM_eq_forM, List.forM_cons, ensures_bind]
    refine (log_onStdout onOut call).mono ?_ fun _ => id
    rintro _ _ rfl
    have still : (s.print .stdout (logged s.conf.level [call]).flatten).conf.file = some .stdout :=
      onOut
    refine (ih still).mono ?_ fun _ => id
    rintro _ _ rfl
    rw [logged_cons _ call calls, List.flatten_append]
    simp [Logger.print]

end Writing

section Setting
variable {before : Logger}

theorem logSetFile_shows (name : Bytes) (refusal : Option Bytes) :
    Ensures (logSetFile (some name) refusal before) (fun _ s =>
      s.Shows name before ⟨[], [(before.files name).getD []], []⟩) fun _ => False := by
  unfold logSetFile
  rw [ensures_bind, ensures_modify]
  cases refusal with
  | none =>
    refine ⟨⟨fun other foreign => Function.update_of_ne foreign _ _, ?_, ?_, nofun⟩,
      .inr ⟨rfl, rfl, rfl⟩⟩
    · simp
    · simp
  | some error =>
    refine ⟨⟨fun _ _ => rfl, ?_, ?_, nofun⟩, .inl rfl⟩
    · simp [Logger.complain]
    · simp [Logger.complain]

theorem logSetFile_none (refusal : Option Bytes) :
    Ensures (logSetFile none refusal before) (fun _ s => s.files = before.files ∧
      s.stdout = before.stdout ∧ s.conf.file = some .stdout) fun _ => False :=
  ⟨rfl, rfl, rfl⟩

theorem logSetRotate_some (text : Bytes) (command : Option Bytes) :
    Ensures (logSetRotate (some text) command before) (fun _ s =>
      s.files = before.files ∧ s.stdout = before.stdout ∧ s.conf.file = before.conf.file ∧
        s.conf.filename = before.conf.filename ∧
        s.conf.rotateSize = (rotateBytes text).getD 0) fun _ => False := by
  unfold logSetRotate
  rw [ensures_bind, ensures_modify]
  cases parsed : rotateBytes text with
  | none => simp [parsed, Logger.complain]
  | some size => simp [parsed]

theorem Logger.Shows.sized {name : Bytes} {lines : List Bytes} {s s' : Logger}
    (shows : s.Shows name before ⟨[], lines, []⟩) (files : s'.files = s.files)
    (stdout : s'.stdout = s.stdout) (file : s'.conf.file = s.conf.file)
    (filename : s'.conf.filename = s.conf.filename) : s'.Shows name before ⟨[], lines, []⟩ :=
  ⟨⟨files ▸ shows.aside, files ▸ shows.last, stdout.trans shows.printed, nofun⟩,
    by rw [file, filename]; exact shows.goes⟩

end Setting

/-- What is left of the lines of a log: on standard output if it has no file. Files are set aside
at some of the dates, and of two with the same date the second replaces the first. -/
def Logger.Kept (s : Logger) (filename : Option Bytes) (before : Logger) (dates lines : List Bytes) :
    Prop :=
  match filename with
  | none => s.files = before.files ∧ s.stdout = before.stdout ++ lines.flatten
  | some name => ∃ j, ∃ used : List Bytes, s.Shows name before j ∧
    j.lines = (before.files name).getD [] :: lines ∧ used.Sublist dates ∧
    j.aside.map Prod.fst = used.map (fun date => name ++ ascii "-" ++ date) ∧
    (used.Nodup → ∀ file ∈ j.aside, s.files file.1 = some file.2.flatten)

section Run
variable {Iks : Type} [Iksemel Iks] {before : Logger}

def logRun (config : Iks) (refusal : Option Bytes) (answers : LogAnswers) (calls : List LogCall) :
    LogProgram Unit := do
  logInit config refusal answers
  logCalls calls

/-- The calls of a run that ask for a line: `log_set_verbose` asks first. -/
def askedCalls (config : Iks) (answers : LogAnswers) (calls : List LogCall) : List LogCall :=
  levelCall (verboseLevel (logAttrib config "verbose")) answers :: calls

theorem logRun_eq (config : Iks) (refusal : Option Bytes) (answers : LogAnswers)
    (calls : List LogCall) : logRun config refusal answers calls = (do
      logSetFile (logAttrib config "filename") refusal
      logSetRotate (logAttrib config "rotate_size") (logAttrib config "compression_command")
      modify (·.setLevel (verboseLevel (logAttrib config "verbose")))
      logCalls (askedCalls config answers calls)) := by
  simp only [logRun, logInit, logSetVerbose, bind_assoc, askedCalls, logCalls, List.forM_eq_forM,
    List.forM_cons]

/-- Without a rotation size the program stops, with any other configuration it logs on: each
line once and whole, in the order of the calls, in the files set aside, the last file and, from
the first failure to open it on, standard output. No file is set aside before it is full, and
while nothing fails the last one is below the rotation size. All files set aside are still there,
unless two were at the same date. -/
theorem log_kept (config : Iks) (refusal : Option Bytes) (answers : LogAnswers)
    (calls : List LogCall) (before : Logger) :
    let asked := askedCalls config answers calls
    let lines := logged (verboseLevel (logAttrib config "verbose")) asked
    Ensures (logRun config refusal answers calls before)
      (fun _ s => ∃ size, logAttrib config "rotate_size" = some size ∧
        s.conf.rotateSize = (rotateBytes size).getD 0 ∧
        s.Kept (logAttrib config "filename") before (asked.map fun call => call.answers.date) lines ∧
        ∀ name, logAttrib config "filename" = some name → lines ≠ [] → 0 < s.conf.rotateSize →
          (∀ call ∈ asked, call.answers.Calm) → s.Trim name)
      fun fault => fault = .nullPointer ∧ logAttrib config "rotate_size" = none := by
  intro asked lines
  rw [logRun_eq, ensures_bind]
  cases filename : logAttrib config "filename" with
  | none =>
    refine (logSetFile_none refusal).mono ?_ fun _ => False.elim
    rintro _ s ⟨files, stdout, onOut⟩
    rw [ensures_bind]
    cases sized : logAttrib config "rotate_size" with
    | none => exact ⟨rfl, rfl⟩
    | some size =>
      refine (logSetRotate_some size _).mono ?_ fun _ => False.elim
      rintro _ s' ⟨files', stdout', file, -, rotateSize⟩
      rw [ensures_bind, ensures_modify]
      have still : (s'.setLevel (verboseLevel (logAttrib config "verbose"))).conf.file =
        some .stdout := file.trans onOut
      refine (logCalls_onStdout (askedCalls config answers calls) still).mono ?_
        fun _ => False.elim
      rintro _ _ rfl
      exact ⟨size, rfl, rotateSize, ⟨files'.trans files, by rw [← stdout, ← stdout']; rfl⟩, nofun⟩
  | some name =>
    refine (logSetFile_shows name refusal).mono ?_ fun _ => False.elim
    intro _ s shows
    rw [ensures_bind]
    cases sized : logAttrib config "rotate_size" with
    | none => exact ⟨rfl, rfl⟩
    | some size =>
      refine (logSetRotate_some size _).mono ?_ fun _ => False.elim
      rintro _ s' ⟨files, stdout, file, named, rotateSize⟩
      rw [ensures_bind, ensures_modify]
      have set : (s'.setLevel (verboseLevel (logAttrib config "verbose"))).Shows name before _ :=
        shows.sized files stdout file named
      refine (logCalls_shows (askedCalls config answers calls) set).mono ?_ fun _ => False.elim
      rintro _ s'' ⟨same, ⟨j, kept, told, used, few, names⟩, trim⟩
      refine ⟨size, rfl, same.1.trans rotateSize,
        ⟨j, used, kept, told, few, names, kept.recovered names⟩, ?_⟩
      rintro _ ⟨⟩ some on calm
      exact trim calm (same.1 ▸ on) (.inl some)

end Run

end Bosh
