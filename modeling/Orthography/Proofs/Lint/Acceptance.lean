/-
Accepting more words never adds findings.

Two checks of one source are compared, by a strict oracle and by a laxer one. They ask the same
questions, since what is asked does not hang on what was answered, and of each question the laxer
oracle finds something only where the strict one finds something too. A finding is placed by its
piece of text and not by the word in it, so the places of the laxer check are among those of the
strict one, in the same order. Main statement, `checkSource_accepting`: that is so when options ask
for an oracle with more words to accept and with a greater least length of words.
-/
import Orthography.CommandLine.Run
import Orthography.Proofs.Lint.Emission
import Orthography.Proofs.Lint.Reference
import Orthography.Proofs.Spelling.Acceptance

set_option autoImplicit false

namespace Orthography

/-- Where a finding stands: its span, its line and its column. -/
def Diagnostic.place (d : Diagnostic) : Span × Int × Int := (d.span, d.line, d.column)

namespace Lint

open Spelling

/-! ## Findings among acts -/

namespace Act

/-- The places of the findings among some acts. -/
def places (acts : List Act) : List (Span × Int × Int) :=
  (diagnostics acts).map Diagnostic.place

/-- What is found is seen from outside, so a check may be read off its visible acts. -/
theorem diagnostics_visible (acts : List Act) : diagnostics (visible acts) = diagnostics acts := by
  induction acts with
  | nil => rfl
  | cons act rest ih =>
    cases act with
    | report d => exact congrArg (d :: ·) ih
    | seek | query | log => exact ih

theorem places_append (acts more : List Act) :
    places (acts ++ more) = places acts ++ places more := by
  rw [places, diagnostics, List.filterMap_append, List.map_append]
  rfl

end Act

namespace Site

variable {filePath : String} {index : LineIndex} {lax strict : Oracle}

/-! ## One question -/

/-- The place of a finding is that of its piece of text, whatever the word. This is why findings
about different words can be compared at all: a laxer oracle may stop at a later word of the same
piece. -/
theorem place_diagnose (lax strict : Oracle) (offset : Int) (t : Text) (found sooner : Span) :
    ((⟨filePath, index, lax⟩ : Site).diagnose offset t found).place
      = ((⟨filePath, index, strict⟩ : Site).diagnose offset t sooner).place := by
  rw [diagnose, diagnose]
  dsimp only
  cases index.lineColumn? offset <;> rfl

/-- What the laxer oracle finds in a piece of text, the strict one finds in its place: it stops at
that word or sooner, and a piece is reported once. -/
theorem places_asked_sublist (h : lax.IsLaxer strict) (raw : Text) (offset : Int) :
    (Act.places ((⟨filePath, index, lax⟩ : Site).asked raw offset)).Sublist
      (Act.places ((⟨filePath, index, strict⟩ : Site).asked raw offset)) := by
  rw [asked, asked]
  generalize Prose.ofRaw raw = t
  cases hlax : (lax.firstMisspelling t 0).filter (·.start < t.length) with
  | none => exact List.nil_sublist _
  | some found =>
    obtain ⟨hfound, hwithin⟩ := Option.filter_eq_some_iff.mp hlax
    rw [decide_eq_true_eq] at hwithin
    obtain ⟨sooner, hsooner, hbefore⟩ := h t 0 found hfound
    have hle : sooner.start ≤ found.start := by
      rcases hbefore with rfl | hbefore
      · exact Nat.le_refl _
      · exact Nat.le_trans sooner.start_le_stop hbefore
    -- the strict answer begins no later, so it begins within the text too
    have hstrict : (strict.firstMisspelling t 0).filter (·.start < t.length) = some sooner := by
      rw [hsooner, Option.filter_eq_some_iff, decide_eq_true_eq]
      exact ⟨rfl, by omega⟩
    simp only [hstrict]
    show [((⟨filePath, index, lax⟩ : Site).diagnose offset t found).place].Sublist
      [((⟨filePath, index, strict⟩ : Site).diagnose offset t sooner).place]
    exact place_diagnose lax strict offset t found sooner ▸ List.Sublist.refl _

theorem places_flatMap_asked_sublist (h : lax.IsLaxer strict) (raws : List Text) (offset : Int) :
    (Act.places (raws.flatMap ((⟨filePath, index, lax⟩ : Site).asked · offset))).Sublist
      (Act.places (raws.flatMap ((⟨filePath, index, strict⟩ : Site).asked · offset))) := by
  induction raws with
  | nil => exact List.Sublist.refl _
  | cons raw rest ih =>
    rw [List.flatMap_cons, List.flatMap_cons, Act.places_append, Act.places_append]
    exact (places_asked_sublist h raw offset).append ih

/-! ## All questions -/

variable {options options' : Options}

/-- **One row.** Options that differ in the words to accept and the least length alone have the same
comments hold the marker and the same tokens checked, so the two recursions go in step. -/
theorem places_referenceAll_sublist (h : lax.IsLaxer strict)
    (hmarker : options'.suppressionMarker = options.suppressionMarker)
    (hcomments : options'.checkComments = options.checkComments)
    (htokens : options'.checkTokens = options.checkTokens) (row : List Token) :
    (Act.places ((⟨filePath, index, lax⟩ : Site).referenceAll options' row)).Sublist
      (Act.places ((⟨filePath, index, strict⟩ : Site).referenceAll options row)) := by
  have hmarks : options'.marks = options.marks := by
    funext comment
    rw [Options.marks, Options.marks, hmarker]
  induction row using Token.rowRec with
  | nil => exact List.Sublist.refl _
  | cons t rest hbelow hbehind =>
    rw [referenceAll, referenceAll, Act.places_append, Act.places_append]
    refine List.Sublist.append ?_ hbehind
    -- the comments before a marker are asked about in either case
    have hspared : (Act.places (if options'.checkComments then
          (t.comments.takeWhile (!options'.marks ·)).flatMap
            ((⟨filePath, index, lax⟩ : Site).asked · t.offset)
        else [])).Sublist
        (Act.places (if options.checkComments then
          (t.comments.takeWhile (!options.marks ·)).flatMap
            ((⟨filePath, index, strict⟩ : Site).asked · t.offset)
        else [])) := by
      rw [hcomments, hmarks]
      split
      · exact places_flatMap_asked_sublist h _ _
      · exact List.Sublist.refl _
    -- a marker hides what is below the token, for both sets of options or for neither
    cases hmarked : t.comments.any options.marks with
    | true =>
      rw [reference_of_marked hmarked, reference_of_marked (hmarks ▸ hmarked)]
      exact hspared
    | false =>
      rw [reference_of_unmarked hmarked, reference_of_unmarked (hmarks ▸ hmarked)]
      rw [Act.places_append, Act.places_append, Act.places_append, Act.places_append]
      refine hspared.append (List.Sublist.append ?_ hbelow)
      rw [htokens]
      split
      · exact places_asked_sublist h _ _
      · exact List.Sublist.refl _

end Site

/-! ## Sources -/

/-- A source that is parsed is checked twice. What was wrong in parsing it is found both times, at
the end of both lists, so only the words before it are to be compared. -/
theorem places_checkParsed_sublist {lax strict : Oracle} (h : lax.IsLaxer strict)
    (options options' : Options)
    (hmarker : options'.suppressionMarker = options.suppressionMarker)
    (hcomments : options'.checkComments = options.checkComments)
    (htokens : options'.checkTokens = options.checkTokens) (report report' : Option Report)
    (p : Parsed) :
    ((checkParsed lax options' report' p).diagnostics.map Diagnostic.place).Sublist
      ((checkParsed strict options report p).diagnostics.map Diagnostic.place) := by
  rw [diagnostics_checkParsed, diagnostics_checkParsed, List.map_append, List.map_append]
  refine List.Sublist.append ?_ (List.Sublist.refl _)
  rw [← Act.diagnostics_visible, ← Act.diagnostics_visible (Site.checkTree _ options _),
    Site.visible_checkTree, Site.visible_checkTree]
  exact Site.places_referenceAll_sublist h hmarker hcomments htokens _

/-- The options with words to accept and a least length of words. -/
def Options.accepting (base : Options) (knownWords : List String) (minWordLength : Int) : Options :=
  { base with knownWords, minWordLength }

/-- **Acceptance.** Where options ask for an oracle, they do so with more words to accept and a
greater least length. The oracle that comes of it finds in a text the same first, or something
behind it, or nothing. And the findings of a check with it stand in places of findings of the check
without, in that order. -/
theorem checkSource_accepting (dictionaries : Dictionaries) (base : Options)
    (words more : List String) {m m' : Int} (hm : m ≤ m') {strict : Oracle}
    (hstrict : CommandLine.oracleFor dictionaries (base.accepting words m) = .ok strict)
    (report report' : Option Report) (source : Text) (filePath : String) :
    ∃ lax, CommandLine.oracleFor dictionaries (base.accepting (words ++ more) m') = .ok lax
      ∧ (∀ t start found, lax.firstMisspelling t start = some found →
        ∃ sooner, strict.firstMisspelling t start = some sooner
          ∧ (sooner = found ∨ sooner.stop ≤ found.start))
      ∧ ((checkSource lax (base.accepting (words ++ more) m') report' source
          filePath).diagnostics.map Diagnostic.place).Sublist
        ((checkSource strict (base.accepting words m) report source
          filePath).diagnostics.map Diagnostic.place) := by
  rw [CommandLine.oracleFor] at hstrict
  cases hvocabulary : vocabularyFor dictionaries (base.accepting words m).language
      ((base.accepting words m).knownWords.map String.toList) with
  -- options that give no oracle ask for nothing
  | error e =>
    rw [hvocabulary] at hstrict
    cases hstrict
  | ok v =>
    rw [hvocabulary] at hstrict
    cases hstrict
    obtain ⟨v', hv', hgrows⟩ := exists_vocabularyFor_append hvocabulary (more.map String.toList)
    -- a larger vocabulary and a greater least length pass more words each
    have hlax : Oracle.IsLaxer (Oracle.ofVocabulary v' m' 2) (Oracle.ofVocabulary v m 2) :=
      Oracle.isLaxer_ofVocabulary hgrows hm 2 2
    refine ⟨Oracle.ofVocabulary v' m' 2, ?_, hlax, ?_⟩
    · rw [CommandLine.oracleFor, Options.accepting]
      simp only [List.map_append]
      rw [Options.accepting] at hv'
      rw [hv']
      rfl
    · exact places_checkParsed_sublist hlax (base.accepting words m)
        (base.accepting (words ++ more) m') rfl rfl rfl report report' (parse source filePath)

/-- Accepting the first of two words in a comment, and the name behind it. The finding in the
comment stays in its place, though it is now about the other word. -/
theorem checkSource_accepting_first :
    let base : Options := { language := "" }
    let oracle (words : List String) : Oracle :=
      Oracle.ofVocabulary (({} : Vocabulary).addAll (defaultWords ++ words.map String.toList)) 2 2
    let found (words : List String) : List (Span × Int × Int) :=
      (checkSource (oracle words) (base.accepting words 2) none "# teh fo\nteh = 1\n".toList
        "m.py").diagnostics.map Diagnostic.place
    CommandLine.oracleFor [] (base.accepting [] 2) = .ok (oracle [])
      ∧ found [] = [(Span.empty 9, 2, 1), (Span.empty 0, 1, 1)]
      ∧ found ["teh"] = [(Span.empty 9, 2, 1)]
      ∧ (found ["teh"]).Sublist (found []) := by
  intro base oracle found
  have hstrict : CommandLine.oracleFor [] (base.accepting [] 2) = .ok (oracle []) := rfl
  have hlax : CommandLine.oracleFor [] (base.accepting ["teh"] 2) = .ok (oracle ["teh"]) := rfl
  obtain ⟨lax, hlax', -, hplaces⟩ := checkSource_accepting [] base [] ["teh"] (Int.le_refl 2)
    hstrict none none "# teh fo\nteh = 1\n".toList "m.py"
  obtain rfl : oracle ["teh"] = lax := Except.ok.inj (hlax.symm.trans hlax')
  exact ⟨hstrict, by decide +kernel, by decide +kernel, hplaces⟩

end Lint

end Orthography
