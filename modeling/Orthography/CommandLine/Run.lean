/-
A run from the command line to the exit code.

The command line is read, then the configuration, then the files are collected, then the oracle is
made, and only then is the first file checked. So whatever is wrong before that leaves the report
empty. The files are checked one by one, and each adds its findings to the report. A value that is
blank and needed ends the run wherever that happens.

A progress bar is put between the files and the loop over them. All that a run knows of it is which
files come out of it (`bar`); a bar that is put nowhere hands on what it is given.
-/
import Orthography.CommandLine.Invocation
import Orthography.File.Collect
import Orthography.Lint.File

set_option autoImplicit false

namespace Orthography.CommandLine

open Spelling

/-- How a run ends. -/
structure Ending where
  /-- The exit code: 0 if all is well, 1 if something was found, 2 if nothing could be checked. -/
  exit : Nat
  stdout : String := ""
  /-- What is said to be wrong or is logged, less what a progress bar draws. -/
  stderr : String := ""
  /-- The files that were checked, in their order. -/
  checked : List Path := []
  deriving DecidableEq, Repr

/-- What ends a run in disorder. -/
inductive Crash where
  | config (e : Config.ConfigCrash)
  | file (e : Escape)
  | blank (use : BlankUse)
  deriving Repr

def Crash.message : Crash → String
  | .config e => e.message
  | .file e => e.message
  | .blank use => use.message

namespace Ending

/-- The end of a run whose command line says nothing to do. -/
def ofHalt : Halt → Ending
  | .help => { exit := 0, stdout := help }
  | .refused e => { exit := 2, stderr := e.explanation }

def ofError (message : String) : Ending := { exit := 2, stderr := "error: " ++ message ++ "\n" }

end Ending

/-! ## Checking files -/

def logger : String := "typolint.cli"

/-- What has been reported and logged, and over which files. -/
structure Progress where
  report : Report := {}
  log : List LogRecord := []
  checked : List Path := []
  deriving Repr

/-- What is logged over a file: that it is being checked, then what its check has to say. -/
def announced (p : Path) (outcome : Lint.Outcome) : List LogRecord :=
  ⟨.debug, logger, "checking " ++ p.render⟩ :: outcome.log

/-- The progress with one more file checked. A file whose check needs a blank ends the run. -/
def Progress.check (store : Store) (oracle : Oracle) (draft : Draft) (before : Progress)
    (p : Path) : Except Crash Progress := do
  let outcome ← (Lint.checkFile store oracle draft.filled (some before.report) p).mapError .file
  match draft.need? outcome.acts with
  | some use => .error (.blank use)
  | none =>
    .ok { report := outcome.report.getD before.report
          log := before.log ++ announced p outcome
          checked := before.checked ++ [p] }

/-- The record that sums up a run. -/
def summary (files diagnostics : Nat) : LogRecord :=
  ⟨.info, logger,
    "checked " ++ toString files ++ " file(s), " ++ toString diagnostics ++ " diagnostic(s)"⟩

def writtenLog (threshold : LogLevel) (records : List LogRecord) : String :=
  String.join ((records.filter (·.passes threshold)).map LogRecord.line)

/-- The files that are taken one after the other: those that come out of the bar, if there is to be
one. -/
def Invocation.taken (invocation : Invocation) (bar : List Path → List Path) (files : List Path) :
    List Path :=
  if invocation.progress then bar files else files

/-- Checks files in their order. -/
def checkFiles (store : Store) (oracle : Oracle) (invocation : Invocation) (files : List Path)
    (bar : List Path → List Path := id) : Except Crash Ending := do
  let done ← (invocation.taken bar files).foldlM (Progress.check store oracle invocation.draft) {}
  let records := done.log ++ [summary files.length done.report.count]
  return { exit := if done.report.count = 0 then 0 else 1
           stdout := done.report.written
           stderr := writtenLog invocation.logLevel records
           checked := done.checked }

/-! ## The whole run -/

/-- The oracle that options ask for, where there are dictionaries. -/
def oracleFor (dictionaries : Dictionaries) (o : Lint.Options) : Except LanguageError Oracle :=
  (vocabularyFor dictionaries o.language (o.knownWords.map String.toList)).map
    fun v => Oracle.ofVocabulary v o.minWordLength 2

/-- Does what an invocation asks for. -/
def perform (dictionaries : Dictionaries) (store : Store) (invocation : Invocation)
    (bar : List Path → List Path := id) : Except Crash Ending :=
  let options := invocation.draft.filled
  if invocation.draft.stumblesIn store invocation.paths then .error (.blank .pattern)
  else
    match collectFiles store options invocation.paths with
    | .error e => .ok (.ofError e.message)
    | .ok files =>
      match oracleFor dictionaries options with
      | .error e => .ok (.ofError e.message)
      | .ok oracle =>
        if invocation.draft.knownWords.any Given.isBlank then .error (.blank .word)
        else checkFiles store oracle invocation files bar

def run (dictionaries : Dictionaries) (store : Store) (line : List Text)
    (bar : List Path → List Path := id) : Except Crash Ending :=
  match Arguments.ofTexts line with
  | .error halt => .ok (.ofHalt halt)
  | .ok arguments =>
    match Invocation.ofArguments store {} arguments with
    | .error (.refused e) => .ok (.ofError e.message)
    | .error (.crashed e) => .error (.config e)
    | .ok invocation => perform dictionaries store invocation bar

end Orthography.CommandLine
