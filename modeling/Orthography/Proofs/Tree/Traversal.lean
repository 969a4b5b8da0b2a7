/-
The stack loop is the recursive walk.

`Tree.walk` keeps the tokens still to come on a stack. The invariant is that the stack is what the
recursion still has to visit: a token's children, then what was left before (`walkStack_eq`). So
every fact about a walk can be proved by the recursion over rows of tokens, `Token.rowRec`.
-/
import Orthography.Tree.Walk

set_option autoImplicit false

namespace Orthography

namespace Token

/-! ## Recursion over rows -/

theorem countAll_append (row more : List Token) :
    countAll (row ++ more) = countAll row + countAll more := by
  rw [countAll, descendantsAll_append, List.length_append]
  rfl

/-- A token before a row, in the counts of its children and of the row. -/
theorem countAll_cons_eq (t : Token) (rest : List Token) :
    countAll (t :: rest) = 1 + countAll t.children + countAll rest := by
  rw [countAll_cons, countAll_append, Nat.add_assoc]

theorem length_descendants (t : Token) : t.descendants.length = 1 + countAll t.children := by
  rw [descendants_eq, List.length_cons, Nat.add_comm]
  rfl

/-- What holds of no tokens, and of a row if it holds below the first token and of the other ones,
holds of every row. -/
@[elab_as_elim]
theorem rowRec {P : List Token → Prop} (nil : P [])
    (cons : ∀ t rest, P t.children → P rest → P (t :: rest)) (row : List Token) : P row := by
  -- on the number of tokens: both the children and the rest of the row are fewer
  induction hcount : countAll row using Nat.strongRecOn generalizing row with
  | _ count ih =>
    cases row with
    | nil => exact nil
    | cons t rest =>
      have hsum := countAll_cons_eq t rest
      exact cons t rest (ih _ (by omega) _ rfl) (ih _ (by omega) _ rfl)

theorem descendantsAll_cons (t : Token) (rest : List Token) :
    descendantsAll (t :: rest) = t :: (descendantsAll t.children ++ descendantsAll rest) := by
  rw [descendantsAll, descendants_eq, List.cons_append]

/-! ## Both walks -/

variable {σ : Type} {visit : Visitor σ}

theorem traverse_of_visit {s s' : σ} {t : Token} (h : visit s t = (s', .visitChildren)) :
    traverse visit s t = traverseAll visit s' t.children := by
  cases t
  rw [traverse, h]

theorem traverse_of_skip {s s' : σ} {t : Token} (h : visit s t = (s', .skipChildren)) :
    traverse visit s t = s' := by
  cases t
  rw [traverse, h]

theorem traverseAll_append (s : σ) (xs ys : List Token) :
    traverseAll visit s (xs ++ ys) = traverseAll visit (traverseAll visit s xs) ys := by
  induction xs generalizing s with
  | nil => rfl
  | cons t rest ih => rw [List.cons_append, traverseAll, ih, traverseAll]

/-- **The stack.** What is on the stack is what the recursion still visits: the children of a
visited token go on top of it, so that they come before what was there. -/
theorem walkStack_eq (s : σ) (stack : List Token) :
    walkStack visit s stack = traverseAll visit s stack := by
  induction s, stack using walkStack.induct visit with
  | case1 s => rw [walkStack, traverseAll]
  | case2 s t rest s' hvisit ih =>
    -- the children went on top of the stack, so they come before the rest
    rw [walkStack, hvisit]
    simp only
    rw [ih, traverseAll_append, traverseAll, traverse_of_visit hvisit]
  | case3 s t rest s' hvisit ih =>
    rw [walkStack, hvisit]
    simp only
    rw [ih, traverseAll, traverse_of_skip hvisit]

/-- A walk that skips nothing sees all tokens in document order. -/
theorem traverseAll_eq_foldl (row : List Token)
    (h : ∀ t ∈ descendantsAll row, ∀ s, (visit s t).2 = .visitChildren) (s : σ) :
    traverseAll visit s row = (descendantsAll row).foldl (fun s t => (visit s t).1) s := by
  induction row using rowRec generalizing s with
  | nil => rfl
  | cons t rest hbelow hbehind =>
    rw [descendantsAll_cons] at h
    have hvisit : visit s t = ((visit s t).1, .visitChildren) :=
      Prod.ext rfl (h t List.mem_cons_self s)
    rw [traverseAll, traverse_of_visit hvisit, descendantsAll_cons, List.foldl_cons,
      List.foldl_append]
    rw [hbelow (fun d hd => h d (List.mem_cons_of_mem _ (List.mem_append_left _ hd)))]
    rw [hbehind (fun d hd => h d (List.mem_cons_of_mem _ (List.mem_append_right _ hd)))]

end Token

namespace Tree

/-- The walk over a tree is the recursion over it. -/
theorem walk_eq {σ : Type} (tree : Tree) (visit : Visitor σ) (s : σ) :
    tree.walk visit s = tree.traverse visit s := Token.walkStack_eq s tree.roots

end Tree

end Orthography
