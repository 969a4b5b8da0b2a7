/-
Which configurations end a run in disorder.

A run reads its settings from one file at most, and what is wrong with that file is to be said in
one line, with the exit code 2. There are three things in a file that are not caught
(`Config.Uncontained`): bytes that are no UTF-8, a whole number with more digits than may be read,
and in a project file a table of tools that is no table. Main statement, `run_containment`: a run
ends in disorder by its configuration exactly if the file that it reads is one of these, and else it
has options to go on with or says what is wrong in good order.
-/
import Orthography.CommandLine.Run

set_option autoImplicit false

namespace Orthography

/-! ## Files that are there -/

/-- A file that is there can be read. So reading the settings does not fail for the file's place,
only for what is in it. -/
theorem Store.exists_read_of_isFile {s : Store} {p : Path} (h : s.isFile p = true) :
    ∃ bytes, s.read p = .ok bytes := by
  rw [isFile] at h
  cases hplace : s.resolve p with
  | error e =>
    rw [hplace] at h
    cases h
  | ok place =>
    rw [hplace, Bool.and_eq_true, Bool.not_eq_true'] at h
    obtain ⟨bytes, hbytes⟩ := Option.isSome_iff_exists.mp h.2
    refine ⟨bytes, ?_⟩
    rw [read, hplace]
    simp [Bind.bind, Except.bind, h.1, hbytes]

namespace Config

open Toml

/-! ## The file that is read -/

/-- A path with the bytes of the file there, if there is one. -/
def fileAt? (store : Store) (path : Path) : Option (Path × Bytes) :=
  if store.isFile path then (store.read path).toOption.map (path, ·) else none

/-- The file that the settings come from: the one that is named, else the tool's own one in the
directory, else the project file. -/
def consulted? (store : Store) (named : Option Path) (directory : Path) : Option (Path × Bytes) :=
  match named with
  | some path => fileAt? store path
  | none =>
    fileAt? store (directory.extend [ownFile]) <|> fileAt? store (directory.extend [projectFile])

/-- The settings where no file is read. -/
def unread (named : Option Path) : Except ConfigFailure Table :=
  match named with
  | some path => .error (.refused (.missing path))
  | none => .ok []

/-- The settings at a path are read from the bytes of the file there; without a file there are none.
-/
theorem settingsAt?_eq (store : Store) (path : Path) :
    settingsAt? store path = (fileAt? store path).map fun file => readSettings file.1 file.2 := by
  rw [settingsAt?, fileAt?]
  split
  · next hfile =>
    obtain ⟨bytes, hbytes⟩ := store.exists_read_of_isFile hfile
    rw [hbytes]
    rfl
  · rfl

/-- The settings are those of the file that is consulted. This puts the search for a file and the
reading of it apart, and all that follows is about the reading. -/
theorem load_eq (store : Store) (named : Option Path) (directory : Path) :
    load store named directory
      = ((consulted? store named directory).map fun file => readSettings file.1 file.2).getD
        (unread named) := by
  cases named with
  | some path => rw [load, settingsAt?_eq, consulted?, unread]
  | none =>
    rw [load, settingsAt?_eq, settingsAt?_eq, consulted?, unread]
    cases fileAt? store (directory.extend [ownFile]) <;> rfl

/-! ## Files that end a run -/

/-- What is in the bytes of a file that ends a run, and how it does. -/
inductive Uncontained (path : Path) (bytes : Bytes) : ConfigCrash → Prop where
  /-- The bytes are no UTF-8. -/
  | undecodable {e : DecodeError} (hdecode : Utf8.decode bytes = .error e) :
    Uncontained path bytes (.undecodable e)
  /-- The first fault of the document is a whole number with too many digits. -/
  | tooManyDigits {t rest : Text} {digits : Nat} (hdecode : Utf8.decode bytes = .ok t)
      (hread : readTable (joinLineEnds t) = .error ⟨.tooManyDigits digits, rest⟩) :
    Uncontained path bytes (.tooManyDigits digits)
  /-- The file is a project file, and its table of tools is no table. -/
  | toolNotTable {t : Text} {table : Table} {value : Value} (hname : path.name = projectFile)
      (hdecode : Utf8.decode bytes = .ok t) (hread : readTable (joinLineEnds t) = .ok table)
      (hvalue : Table.get? table "tool".toList = some value)
      (hother : ∀ tools, value ≠ .table tools) :
    Uncontained path bytes (.toolNotTable value.fullTypeName)

/-- Looking for the table of the tool ends the run exactly if the table of tools is there but is no
table. A table of tools without the tool, or with one that is no table, is answered in good order.
-/
theorem toolTable_eq_crashed_iff {path : Path} {table : Table} {crash : ConfigCrash} :
    toolTable path table = .error (.crashed crash)
      ↔ ∃ value, Table.get? table "tool".toList = some value ∧ (∀ tools, value ≠ .table tools)
        ∧ crash = .toolNotTable value.fullTypeName := by
  constructor
  · intro h
    rw [toolTable] at h
    split at h
    · cases h
    · split at h <;> cases h
    · next value hother hvalue =>
      cases h
      exact ⟨value, hvalue, fun tools heq => hother tools heq, rfl⟩
  · rintro ⟨value, hvalue, hother, rfl⟩
    rw [toolTable, hvalue]
    cases value with
    | table tools => exact absurd rfl (hother tools)
    | _ => rfl

/-- Reading a file ends the run exactly if it is uncontained. The three ways to end are met in the
order in which a file is read: its bytes, the document, the table of tools. -/
theorem readSettings_eq_crashed_iff {path : Path} {bytes : Bytes} {crash : ConfigCrash} :
    readSettings path bytes = .error (.crashed crash) ↔ Uncontained path bytes crash := by
  constructor
  · intro h
    rw [readSettings] at h
    split at h
    · next hdecode =>
      cases h
      exact .undecodable hdecode
    · next hdecode =>
      simp only at h
      split at h
      · next hread =>
        cases h
        exact .tooManyDigits hdecode hread
      -- a document that cannot be read is refused, which is no crash
      · cases h
      · next hread =>
        split at h
        · next hname =>
          obtain ⟨value, hvalue, hother, rfl⟩ := toolTable_eq_crashed_iff.mp h
          exact .toolNotTable hname hdecode hread hvalue hother
        · cases h
  · intro h
    cases h with
    | undecodable hdecode => rw [readSettings, hdecode]
    | tooManyDigits hdecode hread =>
      rw [readSettings, hdecode]
      simp only [hread]
    | toolNotTable hname hdecode hread hvalue hother =>
      rw [readSettings, hdecode]
      simp only [hread, if_pos hname]
      exact toolTable_eq_crashed_iff.mpr ⟨_, hvalue, hother, rfl⟩

/-- Finding and reading the settings ends the run exactly if the file that is consulted does. Files
that are not consulted, because another one was found first, may hold anything. -/
theorem load_eq_crashed_iff {store : Store} {named : Option Path} {directory : Path}
    {crash : ConfigCrash} :
    load store named directory = .error (.crashed crash)
      ↔ ∃ path bytes, consulted? store named directory = some (path, bytes)
        ∧ Uncontained path bytes crash := by
  rw [load_eq]
  cases consulted? store named directory with
  | none => cases named <;> simp [unread]
  | some file =>
    refine Iff.trans readSettings_eq_crashed_iff ⟨fun h => ⟨_, _, rfl, h⟩, ?_⟩
    rintro ⟨_, _, ⟨⟩, h⟩
    exact h

end Config

/-! ## Errors under another name -/

theorem mapError_ok {α ε ε' : Type} (f : ε → ε') (a : α) : (Except.ok a).mapError f = .ok a := rfl

theorem mapError_error {α ε ε' : Type} (f : ε → ε') (e : ε) :
    (Except.error e : Except ε α).mapError f = .error (f e) :=
  rfl

namespace CommandLine

/-! ## Options -/

/-- Laying settings over options does not end a run: it refuses what does not fit, and that is said
in good order. So making the options ends the run exactly if reading the settings does. -/
theorem Invocation.ofArguments_eq_crashed_iff {store : Store} {directory : Path} {a : Arguments}
    {crash : Config.ConfigCrash} :
    ofArguments store directory a = .error (.crashed crash)
      ↔ ∃ path bytes, Config.consulted? store a.configPath directory = some (path, bytes)
        ∧ Config.Uncontained path bytes crash := by
  rw [← Config.load_eq_crashed_iff, ofArguments]
  cases Config.load store a.configPath directory with
  | error e => simp [Bind.bind, Except.bind]
  | ok settings =>
    simp only [Bind.bind, Except.bind]
    cases Config.overlay {} settings with
    | error e => simp [mapError_error]
    | ok options => simp [mapError_ok, pure, Except.pure]

/-! ## Behind the configuration -/

/-- Once there are options, nothing that happens is put down to the configuration. -/
theorem Progress.check_ne_config {store : Store} {oracle : Spelling.Oracle} {draft : Draft}
    {before : Progress} {p : Path} {crash : Config.ConfigCrash} :
    before.check store oracle draft p ≠ .error (.config crash) := by
  rw [check]
  cases Lint.checkFile store oracle draft.filled (some before.report) p with
  | error e => simp [Bind.bind, Except.bind, mapError_error]
  | ok outcome =>
    simp only [Bind.bind, Except.bind, mapError_ok]
    split <;> simp

/-- Nor is anything that happens in any of the files, since each of them is checked without it. -/
theorem foldlM_check_ne_config {store : Store} {oracle : Spelling.Oracle} {draft : Draft}
    {files : List Path} {before : Progress} {crash : Config.ConfigCrash} :
    files.foldlM (Progress.check store oracle draft) before ≠ .error (.config crash) := by
  induction files generalizing before with
  | nil => simp [pure, Except.pure]
  | cons p rest ih =>
    rw [List.foldlM_cons]
    cases hcheck : before.check store oracle draft p with
    | error e =>
      intro h
      cases h
      exact Progress.check_ne_config hcheck
    | ok behind => exact ih

/-- Nor is anything that happens before the first file: patterns, paths and language are refused in
good order. -/
theorem perform_ne_config {dictionaries : Spelling.Dictionaries} {store : Store}
    {invocation : Invocation} {bar : List Path → List Path} {crash : Config.ConfigCrash} :
    perform dictionaries store invocation bar ≠ .error (.config crash) := by
  rw [perform]
  split
  · simp
  split
  · simp
  split
  · simp
  split
  · simp
  · next files _ _ oracle _ _ =>
    rw [checkFiles]
    cases hdone : (invocation.taken bar files).foldlM
        (Progress.check store oracle invocation.draft) {} with
    | error e =>
      intro h
      cases h
      exact foldlM_check_ne_config hdone
    | ok done => simp [Bind.bind, Except.bind, pure, Except.pure]

/-! ## Runs -/

variable {dictionaries : Spelling.Dictionaries} {store : Store} {line : List Text}
  {arguments : Arguments} {bar : List Path → List Path}

/-- A run with a command line that can be read and settings that fit goes on to what it is told to
do. -/
theorem run_of_ok (h : Arguments.ofTexts line = .ok arguments) {invocation : Invocation}
    (hoptions : Invocation.ofArguments store {} arguments = .ok invocation) :
    run dictionaries store line bar = perform dictionaries store invocation bar := by
  rw [run, h]
  simp only [hoptions]

theorem run_of_refused (h : Arguments.ofTexts line = .ok arguments) {e : Config.ConfigError}
    (hoptions : Invocation.ofArguments store {} arguments = .error (.refused e)) :
    run dictionaries store line bar = .ok (.ofError e.message) := by
  rw [run, h]
  simp only [hoptions]

theorem run_of_crashed (h : Arguments.ofTexts line = .ok arguments) {crash : Config.ConfigCrash}
    (hoptions : Invocation.ofArguments store {} arguments = .error (.crashed crash)) :
    run dictionaries store line bar = .error (.config crash) := by
  rw [run, h]
  simp only [hoptions]

/-- A run ends by its configuration exactly if making the options does. What comes after the options
cannot end it that way (`perform_ne_config`), so nothing is lost in the other direction. -/
theorem run_eq_config_iff (h : Arguments.ofTexts line = .ok arguments)
    {crash : Config.ConfigCrash} :
    run dictionaries store line = .error (.config crash)
      ↔ Invocation.ofArguments store {} arguments = .error (.crashed crash) := by
  cases hoptions : Invocation.ofArguments store {} arguments with
  | ok invocation =>
    rw [run_of_ok h hoptions]
    exact ⟨fun hrun => absurd hrun perform_ne_config, fun hcrash => by cases hcrash⟩
  | error e =>
    cases e with
    | refused e =>
      rw [run_of_refused h hoptions]
      simp
    | crashed other =>
      rw [run_of_crashed h hoptions]
      simp

/-- **Containment.** A command line that can be read ends a run by its configuration exactly if the
file that is consulted is uncontained. Else there are options to go on with, or one line says what
is wrong and the exit code is 2. -/
theorem run_containment (dictionaries : Spelling.Dictionaries) (store : Store)
    (h : Arguments.ofTexts line = .ok arguments) :
    (∀ directory crash,
      Invocation.ofArguments store directory arguments = .error (.crashed crash)
        ↔ ∃ path bytes, Config.consulted? store arguments.configPath directory = some (path, bytes)
          ∧ Config.Uncontained path bytes crash)
      ∧ (∀ crash, run dictionaries store line = .error (.config crash)
        ↔ ∃ path bytes, Config.consulted? store arguments.configPath {} = some (path, bytes)
          ∧ Config.Uncontained path bytes crash)
      ∧ ((∀ path bytes crash, Config.consulted? store arguments.configPath {} = some (path, bytes) →
          ¬ Config.Uncontained path bytes crash) →
        (∃ invocation, Invocation.ofArguments store {} arguments = .ok invocation
            ∧ run dictionaries store line = perform dictionaries store invocation)
          ∨ ∃ e, Invocation.ofArguments store {} arguments = .error (.refused e)
            ∧ run dictionaries store line
              = .ok { exit := 2, stdout := "", stderr := "error: " ++ e.message ++ "\n" }) := by
  refine ⟨fun _ _ => Invocation.ofArguments_eq_crashed_iff,
    fun _ => (run_eq_config_iff h).trans Invocation.ofArguments_eq_crashed_iff,
    fun hcontained => ?_⟩
  cases hoptions : Invocation.ofArguments store {} arguments with
  | ok invocation => exact Or.inl ⟨invocation, rfl, run_of_ok h hoptions⟩
  | error e =>
    cases e with
    | refused e => exact Or.inr ⟨e, rfl, run_of_refused h hoptions⟩
    | crashed crash =>
      obtain ⟨path, bytes, hfile, hbad⟩ := Invocation.ofArguments_eq_crashed_iff.mp hoptions
      exact absurd hbad (hcontained path bytes crash hfile)

/-- A file of the tool's own with a byte that belongs to no character ends the run, and is named by
that byte. -/
theorem run_containment_undecodable :
    let store : Store := ({} : Store).addFile ⟨[], [Config.ownFile]⟩ [0xFF]
    Arguments.ofTexts [] = .ok {}
      ∧ run [] store [] = .error (.config (.undecodable ⟨"utf-8", 0xFF, 0, 1, .invalidStart⟩)) := by
  intro store
  have harguments : Arguments.ofTexts [] = .ok {} := rfl
  have hfile : Config.consulted? store none {} = some (⟨[], [Config.ownFile]⟩, [0xFF]) := by decide
  have hdecode : Utf8.decode [0xFF] = .error ⟨"utf-8", 0xFF, 0, 1, .invalidStart⟩ := by
    rw [Utf8.decode, Utf8.decodeFrom]
    rfl
  exact ⟨harguments, ((run_containment [] store harguments).2.1 _).mpr
    ⟨_, _, hfile, .undecodable hdecode⟩⟩

/-- A project file whose key for the table of tools stands for a number. Neither refused nor used,
it ends the run. -/
theorem run_of_tool_number :
    let store : Store := ({} : Store).addFile ⟨[], [Config.projectFile]⟩
      ("tool = 1\n".toList.map fun c => c.toNat.toUInt8)
    Arguments.ofTexts [] = .ok {}
      ∧ Invocation.ofArguments store {} {} = .error (.crashed (.toolNotTable "int"))
      ∧ run [] store [] = .error (.config (.toolNotTable "int")) := by
  intro store
  have harguments : Arguments.ofTexts [] = .ok {} := rfl
  have hcrash : Invocation.ofArguments store {} {} = .error (.crashed (.toolNotTable "int")) := by
    have hname : (match Invocation.ofArguments store {} {} with
        | .error (.crashed (.toolNotTable name)) => some name
        | _ => none) = some "int" := by decide +kernel
    split at hname
    · next heq =>
      rw [heq]
      cases hname
      rfl
    · cases hname
  exact ⟨harguments, hcrash, (run_eq_config_iff harguments).mpr hcrash⟩

end CommandLine

end Orthography
