/-
Walks through a token tree.

A visitor sees the tokens in document order and says of each one whether the walk goes on below
it. Its state runs through the walk and may hold the whole history. `Tree.walk` keeps the tokens
still to come on a stack; `Tree.traverse` is the same walk as plain recursion over the tree.
-/
import Orthography.Tree.Basic

set_option autoImplicit false

namespace Orthography

/-- Whether a walk goes on below a token. -/
inductive Directive where
  | visitChildren
  | skipChildren
  deriving DecidableEq, Repr

/-- A visitor with a state. -/
abbrev Visitor (σ : Type) := σ → Token → σ × Directive

namespace Token

/-! ## With a stack -/

/-- How many tokens there are in a row of tokens and below it. -/
def countAll (ts : List Token) : Nat := (descendantsAll ts).length

/-- A token on top of a stack, its children included. -/
theorem countAll_cons (t : Token) (rest : List Token) :
    countAll (t :: rest) = 1 + countAll (t.children ++ rest) := by
  simp [countAll, descendantsAll, descendants_eq, descendantsAll_append]
  omega

/-- The walk over a stack of tokens; a token's children go on top of what is left. -/
def walkStack {σ : Type} (visit : Visitor σ) (s : σ) : List Token → σ
  | [] => s
  | t :: rest =>
    match visit s t with
    | (s, .visitChildren) => walkStack visit s (t.children ++ rest)
    | (s, .skipChildren) => walkStack visit s rest
termination_by stack => countAll stack
decreasing_by
  · simp only [countAll_cons]; omega
  · rw [countAll_cons]; simp only [countAll, descendantsAll_append, List.length_append]; omega

/-! ## By recursion -/

mutual

def traverse {σ : Type} (visit : Visitor σ) (s : σ) : Token → σ
  | ⟨kind, text, offset, leading, trailing, children⟩ =>
    match visit s ⟨kind, text, offset, leading, trailing, children⟩ with
    | (s, .visitChildren) => traverseAll visit s children
    | (s, .skipChildren) => s

def traverseAll {σ : Type} (visit : Visitor σ) (s : σ) : List Token → σ
  | [] => s
  | t :: rest => traverseAll visit (traverse visit s t) rest

end

end Token

/-! ## Over a tree -/

namespace Tree

def walk {σ : Type} (tree : Tree) (visit : Visitor σ) (s : σ) : σ :=
  Token.walkStack visit s tree.roots

def traverse {σ : Type} (tree : Tree) (visit : Visitor σ) (s : σ) : σ :=
  Token.traverseAll visit s tree.roots

end Tree

end Orthography
