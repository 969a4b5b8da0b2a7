/-
What checking a tree comes to, as one recursion over the tree.

The check is a visitor with early returns that a stack loop calls. `Site.reference` says the same
without visitor, loop or state: it splits the comments of a token at the first one that holds the
marker, and goes on below a token only if there is none. What the outside sees of a check, questions
to the oracle and findings in one sequence, is that recursion (`Site.visible_checkTree`).

It follows that a check reads little of a token under a marker. `Token.Agree` says how little.
-/
import Orthography.Lint.Visitor
import Orthography.Proofs.Tree.Traversal

set_option autoImplicit false

namespace Orthography

namespace Lint

open Spelling

/-! ## The reference -/

/-- Does the outside see the act? It sees questions to the oracle and findings. -/
def Act.isVisible : Act → Bool
  | .query _ | .report _ => true
  | _ => false

/-- What the outside sees of some acts, in their order. -/
def Act.visible (acts : List Act) : List Act := acts.filter Act.isVisible

namespace Act

@[simp] theorem visible_nil : visible [] = [] := rfl

@[simp] theorem visible_append (acts more : List Act) :
    visible (acts ++ more) = visible acts ++ visible more := List.filter_append acts more

@[simp] theorem visible_query (t : Text) (rest : List Act) :
    visible (.query t :: rest) = .query t :: visible rest := rfl

@[simp] theorem visible_report (d : Diagnostic) (rest : List Act) :
    visible (.report d :: rest) = .report d :: visible rest := rfl

@[simp] theorem visible_seek (comment : Text) (rest : List Act) :
    visible (.seek comment :: rest) = visible rest := rfl

@[simp] theorem visible_log (records : List LogRecord) : visible (records.map .log) = [] := by
  induction records with
  | nil => rfl
  | cons record rest ih => exact ih

end Act

/-- Does a comment hold the marker? -/
def Options.marks (options : Options) (comment : Text) : Bool :=
  isSuppressed comment options.suppressionMarker.toList

namespace Site

/-- The question about a piece of text, and the finding if the answer begins within the text. -/
def asked (site : Site) (raw : Text) (offset : Int) : List Act :=
  let t := Prose.ofRaw raw
  let answer := (site.oracle.firstMisspelling t 0).filter (·.start < t.length)
  .query t :: answer.toList.map fun misspelled => .report (site.diagnose offset t misspelled)

mutual

/-- What the outside sees of a token and of what is below it. -/
def reference (site : Site) (options : Options) : Token → List Act
  | ⟨kind, text, offset, leading, trailing, children⟩ =>
    let t : Token := ⟨kind, text, offset, leading, trailing, children⟩
    let spared := t.comments.takeWhile (!options.marks ·)
    (if options.checkComments then spared.flatMap (site.asked · offset) else [])
      ++ if t.comments.any options.marks then []
        else
          (if options.checkTokens && kind.isCheckable then site.asked text t.start else [])
            ++ referenceAll site options children

/-- The same for a row of tokens. -/
def referenceAll (site : Site) (options : Options) : List Token → List Act
  | [] => []
  | t :: rest => reference site options t ++ referenceAll site options rest

end

variable {site : Site} {options : Options}

/-- The recursion at a token under a marker: its comments before the marker, and nothing below. -/
theorem reference_of_marked {t : Token} (h : t.comments.any options.marks = true) :
    site.reference options t
      = if options.checkComments then
          (t.comments.takeWhile (!options.marks ·)).flatMap (site.asked · t.offset)
        else [] := by
  cases t
  rw [reference, if_pos h, List.append_nil]

/-- The recursion at any other token: its comments, its text, and then its children. -/
theorem reference_of_unmarked {t : Token} (h : t.comments.any options.marks = false) :
    site.reference options t
      = (if options.checkComments then
          (t.comments.takeWhile (!options.marks ·)).flatMap (site.asked · t.offset)
        else [])
        ++ ((if options.checkTokens && t.kind.isCheckable then site.asked t.text t.start else [])
          ++ site.referenceAll options t.children) := by
  cases t
  rw [reference, if_neg (Bool.eq_false_iff.mp h)]

/-! ## One token -/

/-- Log records are not seen. -/
theorem visible_check (site : Site) (raw : Text) (offset : Int) :
    Act.visible (site.check raw offset) = site.asked raw offset := by
  rw [check, asked, Act.visible_query]
  cases site.oracle.firstMisspelling (Prose.ofRaw raw) 0 with
  | none => rfl
  | some misspelled =>
    by_cases hwithin : misspelled.start < (Prose.ofRaw raw).length
    · simp [Option.filter, hwithin]
    · simp [Option.filter, hwithin]

/-- The comments before the first one that holds the marker are asked about. The loop over them
stops at that one, and says whether there was one. -/
theorem visible_checkComments (site : Site) (options : Options) (offset : Int)
    (comments : List Text) :
    Act.visible (site.checkComments options offset comments).1
        = (if options.checkComments then
            (comments.takeWhile (!options.marks ·)).flatMap (site.asked · offset)
          else [])
      ∧ (site.checkComments options offset comments).2 = comments.any options.marks := by
  induction comments with
  | nil => simp [checkComments]
  | cons comment rest ih =>
    rw [checkComments]
    generalize site.checkComments options offset rest = checked at ih
    obtain ⟨acts, suppressed⟩ := checked
    obtain ⟨hvisible, hsuppressed⟩ := ih
    by_cases hmarks : isSuppressed comment options.suppressionMarker.toList = true
    -- here the loop stops, and so does what is taken
    · simp [hmarks, Options.marks]
    · have hmark : options.marks comment = false := by simpa [Options.marks] using hmarks
      rw [if_neg hmarks]
      dsimp only at hvisible hsuppressed ⊢
      refine ⟨?_, by simp [hsuppressed, hmark]⟩
      rw [List.cons_append, Act.visible_seek, Act.visible_append, hvisible,
        List.takeWhile_cons_of_pos (by simp [hmark])]
      cases options.checkComments with
      | false => rfl
      | true => simp [visible_check]

/-- A token under a marker is left where the marker stands: what was seen until then is all that the
recursion says of the token. -/
theorem inspect_of_marked (site : Site) {t : Token} (h : t.comments.any options.marks = true) :
    Act.visible (site.inspect options t).1 = site.reference options t
      ∧ (site.inspect options t).2 = .skipChildren := by
  obtain ⟨hvisible, hsuppressed⟩ := visible_checkComments site options t.offset t.comments
  -- the visitor returns early, with what the comments led to
  rw [reference_of_marked h, ← hvisible, inspect]
  rw [h] at hsuppressed
  generalize site.checkComments options t.offset t.comments = checked at hsuppressed
  obtain ⟨acts, suppressed⟩ := checked
  obtain rfl : suppressed = true := hsuppressed
  exact ⟨rfl, rfl⟩

/-- Any other token is checked, and its children are visited, which is what the recursion says of it
once the walk has come to them. -/
theorem inspect_of_unmarked (site : Site) {t : Token} (h : t.comments.any options.marks = false) :
    Act.visible (site.inspect options t).1 ++ site.referenceAll options t.children
        = site.reference options t
      ∧ (site.inspect options t).2 = .visitChildren := by
  obtain ⟨hvisible, hsuppressed⟩ := visible_checkComments site options t.offset t.comments
  rw [reference_of_unmarked h, ← hvisible, inspect]
  rw [h] at hsuppressed
  generalize site.checkComments options t.offset t.comments = checked at hsuppressed
  obtain ⟨acts, suppressed⟩ := checked
  obtain rfl : suppressed = false := hsuppressed
  refine ⟨?_, rfl⟩
  rw [← List.append_assoc]
  congr 1
  rw [Act.visible_append]
  congr 1
  split
  · exact visible_check site t.text t.start
  · rfl

/-! ## A tree -/

/-- **One row.** Walking over tokens adds what the recursion says. The walk carries all acts so far
in one list, so the statement is about what is added to whatever list it began with. -/
theorem visible_traverseAll (site : Site) (options : Options) (row : List Token)
    (acts : Array Act) :
    Act.visible (Token.traverseAll (site.visitor options) acts row).toList
      = Act.visible acts.toList ++ site.referenceAll options row := by
  -- on the row, with any acts before it; what is seen of those stays in front
  induction row using Token.rowRec generalizing acts with
  | nil => simp [Token.traverseAll, referenceAll]
  | cons t rest hbelow hbehind =>
    rw [Token.traverseAll, hbehind, referenceAll, ← List.append_assoc]
    congr 1
    cases hmarked : t.comments.any options.marks with
    | true =>
      obtain ⟨hvisible, hskip⟩ := inspect_of_marked site hmarked
      have hvisit : site.visitor options acts t
          = (acts ++ (site.inspect options t).1, .skipChildren) := Prod.ext rfl hskip
      rw [Token.traverse_of_skip hvisit, ← hvisible]
      simp
    | false =>
      obtain ⟨hvisible, hgo⟩ := inspect_of_unmarked site hmarked
      have hvisit : site.visitor options acts t
          = (acts ++ (site.inspect options t).1, .visitChildren) := Prod.ext rfl hgo
      rw [Token.traverse_of_visit hvisit, hbelow, ← hvisible]
      simp

/-- What the outside sees of the check of a tree is the recursion over its top-level tokens and its
end. -/
theorem visible_checkTree (site : Site) (options : Options) (tree : Tree) :
    Act.visible (site.checkTree options tree) = site.referenceAll options tree.roots := by
  rw [checkTree, Tree.walk_eq, Tree.traverse, visible_traverseAll]
  rfl

end Site

end Lint

/-! ## What a check reads -/

namespace Token

mutual

/-- Two tokens agree in what a check reads of them: of a token with a marker, its offset and the
comments before the marker; of any other token all but the layout of its trivia, and what is below
it likewise. -/
def Agree (marks : Text → Bool) : Token → Token → Prop
  | ⟨kind, text, offset, leading, trailing, children⟩, other =>
    let t : Token := ⟨kind, text, offset, leading, trailing, children⟩
    offset = other.offset
      ∧ t.comments.takeWhile (!marks ·) = other.comments.takeWhile (!marks ·)
      ∧ t.comments.any marks = other.comments.any marks
      ∧ (t.comments.any marks = false →
        kind = other.kind ∧ text = other.text ∧ t.start = other.start
          ∧ AgreeAll marks children other.children)

/-- The same for two rows of tokens. -/
def AgreeAll (marks : Text → Bool) : List Token → List Token → Prop
  | [], others => others = []
  | t :: rest, others =>
    match others with
    | [] => False
    | other :: more => Agree marks t other ∧ AgreeAll marks rest more

end

/-- What it takes for two tokens to agree, spelled out: nothing but their offset and their comments
up to the marker, and if there is none, all that is checked of them. -/
theorem agree_iff {marks : Text → Bool} {t other : Token} :
    Agree marks t other ↔ t.offset = other.offset
      ∧ t.comments.takeWhile (!marks ·) = other.comments.takeWhile (!marks ·)
      ∧ t.comments.any marks = other.comments.any marks
      ∧ (t.comments.any marks = false →
        t.kind = other.kind ∧ t.text = other.text ∧ t.start = other.start
          ∧ AgreeAll marks t.children other.children) := by
  cases t
  rw [Agree]

end Token

namespace Lint.Site

/-- Rows that agree are checked alike. The induction goes over both rows at once, and below a marker
it stops, as agreement does. -/
theorem referenceAll_congr {options : Options} {row others : List Token}
    (h : Token.AgreeAll options.marks row others) (site : Site) :
    site.referenceAll options row = site.referenceAll options others := by
  -- on the first row; below a marker nothing is asked of the second one
  induction row using Token.rowRec generalizing others with
  | nil =>
    rw [Token.AgreeAll] at h
    rw [h]
  | cons t rest hbelow hbehind =>
    cases others with
    | nil => exact absurd h (by simp [Token.AgreeAll])
    | cons other more =>
      rw [Token.AgreeAll, Token.agree_iff] at h
      obtain ⟨⟨hoffset, hspared, hmarked, hrest⟩, hmore⟩ := h
      rw [referenceAll, referenceAll, hbehind hmore]
      congr 1
      cases hmarks : t.comments.any options.marks with
      | true =>
        rw [reference_of_marked hmarks, reference_of_marked (hmarked ▸ hmarks), hspared, hoffset]
      | false =>
        obtain ⟨hkind, htext, hstart, hchildren⟩ := hrest hmarks
        rw [reference_of_unmarked hmarks, reference_of_unmarked (hmarked ▸ hmarks), hspared,
          hoffset, hkind, htext, hstart, hbelow hchildren]

/-- **A check is its reference.** The outside sees of the check of a tree what the recursion over
its top-level tokens and its end says, and the same of every tree that agrees with it. -/
theorem checkTree_refines_reference (site : Site) (options : Options) (tree : Tree) :
    Act.visible (site.checkTree options tree) = site.referenceAll options tree.roots
      ∧ ∀ other : Tree, Token.AgreeAll options.marks tree.roots other.roots →
        Act.visible (site.checkTree options other) = site.referenceAll options tree.roots := by
  refine ⟨visible_checkTree site options tree, fun other hagree => ?_⟩
  rw [visible_checkTree, referenceAll_congr hagree]

/-- Under a marker it does not matter what the token is and what lies below it. -/
theorem checkTree_refines_reference_marker :
    let site : Site := ⟨"m.py", LineIndex.ofText [], fun t _ => some ⟨0, t.length, by omega⟩,
      fun _ _ => none⟩
    let options : Options := { suppressionMarker := "off" }
    let marker : Trivia := ⟨.comment, "# off".toList, 0⟩
    let eof : Token := Token.endOfSource 20 []
    let tree : Tree := ⟨[], [⟨.operator, ['('], 6, [marker], [], []⟩], eof⟩
    let other : Tree := ⟨[], [⟨.identifier, "teh".toList, 6, [], [marker], [eof]⟩], eof⟩
    Token.AgreeAll options.marks tree.roots other.roots
      ∧ Act.visible (site.checkTree options other) = site.referenceAll options tree.roots := by
  intro site options marker eof tree other
  have hmarks : options.marks ['#', ' ', 'o', 'f', 'f'] = true := by decide +kernel
  have hagree : Token.AgreeAll options.marks tree.roots other.roots := by
    simp [tree, other, marker, eof, Tree.roots, Token.AgreeAll, Token.agree_iff, Token.comments,
      Token.trivia, Token.endOfSource, hmarks]
  exact ⟨hagree, (checkTree_refines_reference site options tree).2 other hagree⟩

end Lint.Site

end Orthography
