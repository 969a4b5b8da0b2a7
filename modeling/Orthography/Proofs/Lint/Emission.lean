/-
Where the findings of a check go.

A check keeps its findings in the order in which they arise, and hands each of them on to a report
the moment it arises, if there is a report. So there are two sequences of findings, and this file
says that they are one: the check that reports is the check that reports to nobody, and what it
found is then reported in that order (`checkFile_reportedTo`). What a report holds is the lines of
what was reported, and their number (`Report.foldl_emit`).
-/
import Orthography.Lint.File

set_option autoImplicit false

namespace Orthography

/-! ## Reports and collections -/

/-- A report goes on with the lines of what is reported. -/
theorem Report.foldl_emit (r : Report) (ds : List Diagnostic) :
    ds.foldl emit r = ⟨r.written ++ String.join (ds.map lineOf), r.count + ds.length⟩ := by
  induction ds generalizing r with
  | nil => rw [List.foldl_nil, List.map_nil, String.join_nil, String.append_empty]; rfl
  | cons d rest ih =>
    have hcount : r.count + 1 + rest.length = r.count + (d :: rest).length := by
      rw [List.length_cons]
      omega
    rw [List.foldl_cons, ih, emit, List.map_cons, String.join_cons, String.append_assoc, hcount]

/-- A collection keeps what is emitted and hands it on, both in that order. -/
theorem Collection.emitAll_eq (c : Collection) (ds : List Diagnostic) :
    c.emitAll ds
      = ⟨c.diagnostics ++ ds.toArray, c.report.map fun r => ds.foldl Report.emit r⟩ := by
  rw [emitAll]
  induction ds generalizing c with
  | nil => simp
  | cons d rest ih =>
    rw [List.foldl_cons, ih, emit]
    simp [Function.comp_def]

namespace Lint

open Spelling

/-! ## Checks -/

/-- What became of a file, its findings handed on to a report. -/
def Outcome.reportedTo (report : Option Report) (o : Outcome) : Outcome :=
  { o with report := report.map fun r => o.diagnostics.foldl Report.emit r }

/-- What is found in a parsed source: misspelled words first, in the order of the check, then what
was wrong in parsing it. -/
theorem diagnostics_checkParsed (oracle : Oracle) (options : Options) (report : Option Report)
    (p : Parsed) :
    (checkParsed oracle options report p).diagnostics
      = Act.diagnostics ((⟨p.filePath, p.index, oracle⟩ : Site).checkTree options p.tree)
        ++ p.diagnostics := by
  rw [checkParsed]
  simp [Collection.emitAll_eq]

/-- A check of a parsed source that reports is the one that does not, with all that it found
reported afterwards. While it runs nobody looks at the report. -/
theorem checkParsed_reportedTo (oracle : Oracle) (options : Options) (report : Option Report)
    (p : Parsed) :
    checkParsed oracle options report p
      = (checkParsed oracle options none p).reportedTo report := by
  have hfound := diagnostics_checkParsed oracle options none p
  rw [Outcome.reportedTo, hfound]
  rw [checkParsed, checkParsed]
  simp [Collection.emitAll_eq]

theorem checkSource_reportedTo (oracle : Oracle) (options : Options) (report : Option Report)
    (source : Text) (filePath : String) :
    checkSource oracle options report source filePath
      = (checkSource oracle options none source filePath).reportedTo report := by
  rw [checkSource, checkSource, checkParsed_reportedTo]
  rfl

/-- The check of a file that reports is the check that does not, and what it found is reported. So a
run can make the checks of its files one by one and put the reports together in the end. -/
theorem checkFile_reportedTo (store : Store) (oracle : Oracle) (options : Options)
    (report : Option Report) (p : Path) :
    checkFile store oracle options report p
      = (checkFile store oracle options none p).map (·.reportedTo report) := by
  rw [checkFile, checkFile]
  cases readSource store p with
  | error e => rfl
  | ok reading =>
    cases reading with
    | error e =>
      -- one finding is all there is to report
      cases report <;> rfl
    | ok source => exact congrArg Except.ok (checkSource_reportedTo oracle options report source _)

end Lint

end Orthography
