/-
Files are checked independently of each other.

A run has one report and one oracle for all of its files, and what a check finds goes to the report
as it arises. Nothing of that can be seen in the end: a run that comes to its first file says what
the checks of the files say that are made one by one and report to nobody (`checkAlone`). And a run
that finds nothing to go by ends before its first file; the ways in which that happens are those of
`Refused`.

Main statement, `run_independent`. One half goes over the files: what checking one more file does to
a run (`Progress.check_eq_map`), and from that what checking all of them does
(`Progress.foldlM_check_eq_map`). The other half goes over what comes before the first file.
-/
import Orthography.Proofs.Config.Containment
import Orthography.Proofs.File.Collection
import Orthography.Proofs.Lint.Emission

set_option autoImplicit false

namespace Orthography

/-- What is there if one looks past what may have gone wrong. Errors need not be comparable, so a
run on fixed input is evaluated to an option and brought back by this. -/
theorem eq_ok_of_toOption {α ε : Type} {x : Except ε α} {a : α} (h : x.toOption = some a) :
    x = .ok a := by
  cases x with
  | error e => cases h
  | ok b => exact congrArg Except.ok (Option.some.inj h)

namespace CommandLine

open Spelling

/-! ## The files of a run -/

section Files

variable {store : Store} {oracle : Oracle} {draft : Draft}

/-- The check of a file that is the only one, with a report to nobody. -/
def checkAlone (store : Store) (oracle : Oracle) (draft : Draft) (p : Path) :
    Except Crash Lint.Outcome := do
  let outcome ← (Lint.checkFile store oracle draft.filled none p).mapError .file
  match draft.need? outcome.acts with
  | some use => .error (.blank use)
  | none => .ok outcome

/-- The progress once files that were checked alone have been added to it. -/
def Progress.add (before : Progress) (files : List Path) (outcomes : List Lint.Outcome) :
    Progress where
  report := (outcomes.flatMap (·.diagnostics)).foldl Report.emit before.report
  log := before.log ++ (List.zipWith announced files outcomes).flatten
  checked := before.checked ++ files

/-- No files leave no trace in the progress of a run: the start of the induction over its files. -/
theorem Progress.add_nil (before : Progress) : before.add [] [] = before := by
  simp [add]

/-- Adding one file and then the others is adding all of them at once. This is what lets the
induction over the files go through: the progress that the loop hands on is again one to which
checked files were added. -/
theorem Progress.add_add (before : Progress) (p : Path) (outcome : Lint.Outcome)
    (files : List Path) (outcomes : List Lint.Outcome) :
    (before.add [p] [outcome]).add files outcomes
      = before.add (p :: files) (outcome :: outcomes) := by
  simp [add]

/-- What one more file does to a run depends on nothing that the run has done so far. The report
that the check is given only gets what the outcome lists anyway (`checkFile_reportedTo`), so the
check may as well be made without it. -/
theorem Progress.check_eq_map (before : Progress) (p : Path) :
    before.check store oracle draft p
      = (checkAlone store oracle draft p).map fun outcome => before.add [p] [outcome] := by
  unfold check checkAlone
  rw [Lint.checkFile_reportedTo]
  cases Lint.checkFile store oracle draft.filled none p with
  | error e => rfl
  | ok outcome =>
    have hacts : (outcome.reportedTo (some before.report)).acts = outcome.acts := rfl
    simp only [Except.map, mapError_ok, Bind.bind, Except.bind, hacts]
    cases draft.need? outcome.acts with
    | some use => rfl
    | none => simp [add, announced, Lint.Outcome.reportedTo]

/-- And so with all files, up to the first one whose check cannot be made: the loop with its report
and its log is the checks made alone, put together in the end. -/
theorem Progress.foldlM_check_eq_map (before : Progress) (files : List Path) :
    files.foldlM (Progress.check store oracle draft) before
      = (files.mapM (checkAlone store oracle draft)).map (before.add files) := by
  induction files generalizing before with
  | nil => simp [pure, Except.pure, Except.map, add_nil]
  | cons p rest ih =>
    rw [List.foldlM_cons, List.mapM_cons, check_eq_map]
    cases checkAlone store oracle draft p with
    | error e => rfl
    | ok outcome =>
      have hrest := ih (before.add [p] [outcome])
      simp only [Except.map, Bind.bind, Except.bind] at hrest ⊢
      rw [hrest]
      cases rest.mapM (checkAlone store oracle draft) with
      | error e => rfl
      | ok outcomes => simp only [pure, Except.pure, add_add]

end Files

/-! ## Before the first file -/

section Runs

variable {dictionaries : Dictionaries} {store : Store} {line : List Text} {invocation : Invocation}
  {files : List Path} {oracle : Oracle} {bar : List Path → List Path} {ending : Ending}

/-- A command line says what to do, with what the configuration says. -/
def Invokes (store : Store) (line : List Text) (invocation : Invocation) : Prop :=
  ∃ arguments, Arguments.ofTexts line = .ok arguments
    ∧ Invocation.ofArguments store {} arguments = .ok invocation

/-- A run comes to its first file, with an oracle to check it by. -/
structure Reaches (dictionaries : Dictionaries) (store : Store) (line : List Text)
    (invocation : Invocation) (files : List Path) (oracle : Oracle) : Prop where
  invokes : Invokes store line invocation
  patterns : invocation.draft.stumblesIn store invocation.paths = false
  collected : collectFiles store invocation.draft.filled invocation.paths = .ok files
  oracle : oracleFor dictionaries invocation.draft.filled = .ok oracle
  words : invocation.draft.knownWords.any Given.isBlank = false

/-- What a run finds that it cannot go by. -/
inductive Refused (dictionaries : Dictionaries) (store : Store) (line : List Text) : Prop where
  /-- The command line cannot be read. -/
  | line {e : Refusal} (hline : Arguments.ofTexts line = .error (.refused e))
  /-- The configuration is wrong. -/
  | config {arguments : Arguments} {e : Config.ConfigError}
    (hline : Arguments.ofTexts line = .ok arguments)
    (hconfig : Invocation.ofArguments store {} arguments = .error (.refused e))
  /-- One of the paths leads nowhere. -/
  | path {invocation : Invocation} {p : Path} (hinvokes : Invokes store line invocation)
    (hpatterns : invocation.draft.stumblesIn store invocation.paths = false)
    (hp : p ∈ invocation.paths) (hlacks : store.Lacks p)
  /-- There are no words of the language. -/
  | language {invocation : Invocation} {files : List Path} {e : LanguageError}
    (hinvokes : Invokes store line invocation)
    (hpatterns : invocation.draft.stumblesIn store invocation.paths = false)
    (hfiles : collectFiles store invocation.draft.filled invocation.paths = .ok files)
    (hlanguage : oracleFor dictionaries invocation.draft.filled = .error e)

/-- What is left of a run once the command line and the configuration have been read. -/
theorem Invokes.run_eq (h : Invokes store line invocation) :
    run dictionaries store line bar = perform dictionaries store invocation bar := by
  obtain ⟨arguments, hline, hoptions⟩ := h
  exact run_of_ok hline hoptions

/-- What is left of a run that comes to its first file: the loop over the files, with the oracle
that all of them share. -/
theorem Reaches.run_eq (h : Reaches dictionaries store line invocation files oracle) :
    run dictionaries store line bar = checkFiles store oracle invocation files bar := by
  rw [h.invokes.run_eq, perform, if_neg (by rw [h.patterns]; decide)]
  simp only [h.collected, h.oracle]
  rw [if_neg (by rw [h.words]; decide)]

/-- What cannot be gone by ends a run with the exit code 2, and nothing but one text on the error
stream comes of it. In particular no file is checked, whatever else was named. -/
theorem Refused.run_eq (h : Refused dictionaries store line) :
    ∃ message, run dictionaries store line bar = .ok { exit := 2, stderr := message } := by
  cases h with
  | line hline => exact ⟨_, by rw [run, hline]; rfl⟩
  | config hline hconfig => exact ⟨_, run_of_refused hline hconfig⟩
  | @path invocation _ hinvokes hpatterns hp hlacks =>
    have hfiles : ∃ e, collectFiles store invocation.draft.filled invocation.paths = .error e :=
      exists_collectFiles_eq_error_iff.mpr ⟨_, hp, hlacks⟩
    obtain ⟨e, he⟩ := hfiles
    refine ⟨"error: " ++ e.message ++ "\n", ?_⟩
    rw [hinvokes.run_eq, perform, if_neg (by rw [hpatterns]; decide)]
    simp only [he]
    rfl
  | @language _ _ e hinvokes hpatterns hfiles hlanguage =>
    refine ⟨"error: " ++ e.message ++ "\n", ?_⟩
    rw [hinvokes.run_eq, perform, if_neg (by rw [hpatterns]; decide)]
    simp only [hfiles, hlanguage]
    rfl

/-- A run that is told what to do and does not end in disorder is refused or comes to its first
file. The cases are those of what comes before the first file, in their order: the patterns, the
paths, the language, the given words. -/
theorem Invokes.refused_or_reaches (hinvokes : Invokes store line invocation)
    (h : perform dictionaries store invocation bar = .ok ending) :
    Refused dictionaries store line
      ∨ ∃ files oracle, Reaches dictionaries store line invocation files oracle := by
  rw [perform] at h
  -- the guards of the run, in their order
  by_cases hstumbles : invocation.draft.stumblesIn store invocation.paths = true
  · simp [hstumbles] at h
  have hpatterns : invocation.draft.stumblesIn store invocation.paths = false := by
    simpa using hstumbles
  cases hfiles : collectFiles store invocation.draft.filled invocation.paths with
  | error e =>
    obtain ⟨p, hp, hlacks⟩ := exists_collectFiles_eq_error_iff.mp ⟨e, hfiles⟩
    exact Or.inl (.path hinvokes hpatterns hp hlacks)
  | ok files =>
    cases horacle : oracleFor dictionaries invocation.draft.filled with
    | error e => exact Or.inl (.language hinvokes hpatterns hfiles horacle)
    | ok oracle =>
      by_cases hblank : invocation.draft.knownWords.any Given.isBlank = true
      · simp [hpatterns, hfiles, horacle, hblank] at h
      have hwords : invocation.draft.knownWords.any Given.isBlank = false := by
        simpa using hblank
      exact Or.inr ⟨files, oracle, hinvokes, hpatterns, hfiles, horacle, hwords⟩

/-- A run that does not end in disorder has been asked for help, is refused or comes to its first
file. -/
theorem help_or_refused_or_reaches (h : run dictionaries store line bar = .ok ending) :
    ending = .ofHalt .help ∨ Refused dictionaries store line
      ∨ ∃ invocation files oracle, Reaches dictionaries store line invocation files oracle := by
  cases hline : Arguments.ofTexts line with
  | error halt =>
    cases halt with
    | help =>
      rw [run, hline] at h
      cases h
      exact Or.inl rfl
    | refused e => exact Or.inr (Or.inl (.line hline))
  | ok arguments =>
    cases hoptions : Invocation.ofArguments store {} arguments with
    | error e =>
      cases e with
      | refused e => exact Or.inr (Or.inl (.config hline hoptions))
      | crashed crash =>
        -- a crash is disorder
        rw [run_of_crashed hline hoptions] at h
        cases h
    | ok invocation =>
      have hinvokes : Invokes store line invocation := ⟨arguments, hline, hoptions⟩
      rw [hinvokes.run_eq] at h
      rcases hinvokes.refused_or_reaches h with hrefused | ⟨files, oracle, hreaches⟩
      · exact Or.inr (Or.inl hrefused)
      · exact Or.inr (Or.inr ⟨invocation, files, oracle, hreaches⟩)

/-! ## The end of a run -/

/-- A bar that hands on what it is given is not to be seen in what a run does. -/
theorem Invocation.taken_eq (invocation : Invocation) (hbar : ∀ files, bar files = files)
    (files : List Path) : invocation.taken bar files = files := by
  unfold taken
  split
  · exact hbar files
  · rfl

/-- How a run ends whose files were checked alone. -/
def Ending.ofOutcomes (logLevel : LogLevel) (files : List Path) (outcomes : List Lint.Outcome) :
    Ending :=
  let found := outcomes.flatMap (·.diagnostics)
  { exit := if ∀ outcome ∈ outcomes, outcome.diagnostics = [] then 0 else 1
    stdout := String.join (found.map Report.lineOf)
    stderr := writtenLog logLevel
      ((List.zipWith announced files outcomes).flatten ++ [summary files.length found.length])
    checked := files }

/-- Whatever the checks say, the exit code is not the one of a run that is refused. -/
theorem Ending.exit_ofOutcomes_ne_two {logLevel : LogLevel} {outcomes : List Lint.Outcome} :
    (Ending.ofOutcomes logLevel files outcomes).exit ≠ 2 := by
  intro hexit
  unfold ofOutcomes at hexit
  split at hexit
  · cases hexit
  · cases hexit

/-- The loop over the files, from an empty progress on: the ending it comes to is made of the
outcomes of the files checked alone. -/
theorem checkFiles_eq_map (hbar : ∀ files, bar files = files) :
    checkFiles store oracle invocation files bar
      = (files.mapM (checkAlone store oracle invocation.draft)).map
        (Ending.ofOutcomes invocation.logLevel files) := by
  rw [checkFiles, invocation.taken_eq hbar, Progress.foldlM_check_eq_map]
  cases files.mapM (checkAlone store oracle invocation.draft) with
  | error e => rfl
  | ok outcomes =>
    have hnone : (outcomes.flatMap (·.diagnostics)).length = 0
        ↔ ∀ outcome ∈ outcomes, outcome.diagnostics = [] := by
      rw [List.length_eq_zero_iff, List.flatMap_eq_nil_iff]
    simp [Except.map, Bind.bind, Except.bind, pure, Except.pure, Progress.add, Ending.ofOutcomes,
      Report.foldl_emit, hnone, -List.length_flatMap]

/-- A run that comes to its first file ends as the checks of the files say. -/
theorem Reaches.run_eq_map (hbar : ∀ files, bar files = files)
    (h : Reaches dictionaries store line invocation files oracle) :
    run dictionaries store line bar
      = (files.mapM (checkAlone store oracle invocation.draft)).map
        (Ending.ofOutcomes invocation.logLevel files) := by
  rw [h.run_eq, checkFiles_eq_map hbar]

/-- Nothing but what a run cannot go by makes its exit code 2: help ends with 0, and files that were
checked end with 0 or 1. -/
theorem refused_of_exit_eq_two (hbar : ∀ files, bar files = files)
    (hrun : run dictionaries store line bar = .ok ending) (hexit : ending.exit = 2) :
    Refused dictionaries store line := by
  obtain rfl | hrefused | ⟨invocation, files, oracle, hreaches⟩ := help_or_refused_or_reaches hrun
  · cases hexit
  · exact hrefused
  · rw [hreaches.run_eq_map hbar] at hrun
    cases hchecked : files.mapM (checkAlone store oracle invocation.draft) with
    | error crash =>
      rw [hchecked] at hrun
      cases hrun
    | ok outcomes =>
      rw [hchecked] at hrun
      cases hrun
      exact absurd hexit Ending.exit_ofOutcomes_ne_two

/-- **Independence.** Whatever stands between the files and the loop, if it hands them on as they
are: a run that comes to its first file ends as the checks say that are made of each file alone, or
as the first of them does that cannot be made. A run ends with the exit code 2 exactly if it finds
something that it cannot go by; then it has written nothing on the output and checked no file. -/
theorem run_independent (dictionaries : Dictionaries) (store : Store) (line : List Text)
    (hbar : ∀ files, bar files = files) :
    (∀ invocation files oracle, Reaches dictionaries store line invocation files oracle →
      run dictionaries store line bar
        = (files.mapM (checkAlone store oracle invocation.draft)).map
          (Ending.ofOutcomes invocation.logLevel files))
      ∧ ((∃ ending, run dictionaries store line bar = .ok ending ∧ ending.exit = 2)
        ↔ Refused dictionaries store line)
      ∧ ∀ ending, run dictionaries store line bar = .ok ending → ending.exit = 2 →
        ending.stdout = "" ∧ ending.checked = [] := by
  refine ⟨fun _ _ _ hreaches => hreaches.run_eq_map hbar, ⟨?_, ?_⟩, ?_⟩
  · rintro ⟨ending, hrun, hexit⟩
    exact refused_of_exit_eq_two hbar hrun hexit
  · intro h
    have hends : ∃ message,
        run dictionaries store line bar = .ok { exit := 2, stderr := message } := h.run_eq
    obtain ⟨message, hmessage⟩ := hends
    exact ⟨_, hmessage, rfl⟩
  · intro ending hrun hexit
    obtain ⟨message, hmessage⟩ := (refused_of_exit_eq_two hbar hrun hexit).run_eq
    rw [hmessage] at hrun
    cases hrun
    exact ⟨rfl, rfl⟩

/-- A file that cannot be read, and behind it one with a misspelled word. With a path behind them
that leads nowhere, neither is checked. -/
theorem run_independent_unreadable :
    let store : Store := (({} : Store).addFile ⟨[], ["a.py".toList]⟩ [0xFF]).addFile
      ⟨[], ["b.py".toList]⟩ ("# zq\n".toList.map fun c => c.toNat.toUInt8)
    let line (paths : List String) := ("--progress" :: "--language=" :: paths).map String.toList
    (∀ files : List Path, id files = files)
      ∧ (run [] store (line ["a.py", "b.py"]) id).toOption
        = some
          { exit := 1
            stdout := "a.py:0:0: error: File could not be read. "
              ++ "(invalid or missing encoding declaration for 'a.py')\n"
              ++ "b.py:2:1: warning: \"zq\" (CheckSpelling)\n"
            checked := [⟨[], ["a.py".toList]⟩, ⟨[], ["b.py".toList]⟩] }
      ∧ ∃ ending, run [] store (line ["a.py", "b.py", "c.py"]) id = .ok ending ∧ ending.exit = 2
        ∧ ending.stdout = "" ∧ ending.checked = [] := by
  intro store line
  have hbar : ∀ files : List Path, id files = files := fun _ => rfl
  let said (paths : List String) : Arguments :=
    { paths := paths.map String.toList, language := some (.value []), progress := true }
  let asked (paths : List String) : Invocation :=
    { paths := paths.map fun name => ⟨[], [name.toList]⟩, draft := (said paths).overlay {}
      progress := true, logLevel := .warning }
  let vocabulary := ({} : Vocabulary).addAll (defaultWords ++ [])
  refine ⟨hbar, ?_, ?_⟩
  -- the checks of the two files are the whole output, so the whole output can be computed
  · have hreaches : Reaches [] store (line ["a.py", "b.py"]) (asked ["a.py", "b.py"])
        (asked ["a.py", "b.py"]).paths (.ofVocabulary vocabulary 2 2) :=
      { invokes := ⟨said ["a.py", "b.py"], eq_ok_of_toOption (by decide +kernel),
          eq_ok_of_toOption (by decide +kernel)⟩
        patterns := by decide +kernel
        collected := eq_ok_of_toOption (by decide +kernel)
        oracle := by
          rw [oracleFor, vocabularyFor, if_pos (by decide +kernel)]
          rfl
        words := by decide +kernel }
    rw [(run_independent [] store _ hbar).1 _ _ _ hreaches]
    decide +kernel
  · have hinvokes : Invokes store (line ["a.py", "b.py", "c.py"])
        (asked ["a.py", "b.py", "c.py"]) :=
      ⟨said ["a.py", "b.py", "c.py"], eq_ok_of_toOption (by decide +kernel),
        eq_ok_of_toOption (by decide +kernel)⟩
    -- the third path leads nowhere, and the call is refused before any file is opened
    have hrefused : Refused [] store (line ["a.py", "b.py", "c.py"]) :=
      .path hinvokes (by decide +kernel) (by decide +kernel : ⟨[], ["c.py".toList]⟩ ∈ _)
        ⟨by decide +kernel, by decide +kernel⟩
    obtain ⟨-, hiff, hnothing⟩ := run_independent [] store (line ["a.py", "b.py", "c.py"]) hbar
    obtain ⟨ending, hrun, hexit⟩ := hiff.mpr hrefused
    exact ⟨ending, hrun, hexit, hnothing ending hrun hexit⟩

end Runs

end CommandLine

end Orthography
