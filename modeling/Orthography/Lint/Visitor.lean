/-
Checking one token, and walking a tree of them.

Every comment of a token is checked by itself, leading ones first. A comment that holds the
suppression marker ends the work on the token and on all below it. Then the token's own text is
checked, if tokens of its kind have text to check. Of each piece of text the first misspelling alone
is reported: one in a comment at the token, one in the token's text at the start of its trivia.

What happens is kept as one list of acts in their order. Questions to the oracle, findings and log
records are views of that list, and it tells which choices of the user came into play.
-/
import Orthography.Lint.Options
import Orthography.Lint.Reporter
import Orthography.Prose.Words
import Orthography.Tree.Walk

set_option autoImplicit false

namespace Orthography.Lint

open Spelling

/-! ## Acts -/

/-- Something that happens while a tree is checked. -/
inductive Act where
  /-- The suppression marker is looked for in a comment. -/
  | seek (comment : Text)
  | query (text : Text)
  | log (record : LogRecord)
  | report (diagnostic : Diagnostic)
  deriving Repr

namespace Act

def queries (acts : List Act) : List Text :=
  acts.filterMap fun | .query t => some t | _ => none

def records (acts : List Act) : List LogRecord :=
  acts.filterMap fun | .log r => some r | _ => none

def diagnostics (acts : List Act) : List Diagnostic :=
  acts.filterMap fun | .report d => some d | _ => none

end Act

/-! ## One token -/

namespace Site

/-- Checks a piece of text; a finding is placed at `offset`. -/
def check (site : Site) (raw : Text) (offset : Int) : List Act :=
  let t := Prose.ofRaw raw
  .query t ::
    match site.oracle.firstMisspelling t 0 with
    | some misspelled =>
      if misspelled.start < t.length then
        (site.records offset).map .log ++ [.report (site.diagnose offset t misspelled)]
      else []
    | none => []

/-- Checks the comments of a token up to the first one that holds the marker, and says whether there
was one. -/
def checkComments (site : Site) (options : Options) (offset : Int) : List Text → List Act × Bool
  | [] => ([], false)
  | comment :: rest =>
    if isSuppressed comment options.suppressionMarker.toList then ([.seek comment], true)
    else
      let (acts, suppressed) := site.checkComments options offset rest
      (.seek comment :: (if options.checkComments then site.check comment offset else []) ++ acts,
        suppressed)

/-- Checks a token, and says whether the tokens below it are to be checked. -/
def inspect (site : Site) (options : Options) (t : Token) : List Act × Directive :=
  match site.checkComments options t.offset t.comments with
  | (acts, true) => (acts, .skipChildren)
  | (acts, false) =>
    (acts ++ if options.checkTokens && t.kind.isCheckable then site.check t.text t.start else [],
      .visitChildren)

/-! ## A tree -/

/-- The check of one token as a visitor that adds to the acts so far. -/
def visitor (site : Site) (options : Options) : Visitor (Array Act) := fun acts t =>
  let (more, directive) := site.inspect options t
  (acts ++ more, directive)

/-- All that happens while a tree is checked. -/
def checkTree (site : Site) (options : Options) (tree : Tree) : List Act :=
  (tree.walk (site.visitor options) #[]).toList

end Site

end Orthography.Lint
