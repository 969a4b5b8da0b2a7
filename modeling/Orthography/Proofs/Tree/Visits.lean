/-
The visits of a walk.

A walk is known by its visits: which token the visitor saw, in which state, and what it answered.
The recursion lists them with the numbers of the tokens in document order (`Token.visitsAll`). Three
things are shown of the list. Its visits are those that the loop of a walk makes, one in each pass,
until its stack is empty (`Token.loop_iff`). They are what a visitor notes down that is walked over
the tree (`Token.traverseAll_recording`). And their tokens are those of the tree less the tokens
below one where the visitor did not want the children (`Token.map_fst_visitsAll`).

Document order is a loop with a stack as well, started anew for each top-level token; that it is the
recursion is `Tree.descendantsByRoot_eq`. Main statement: `Tree.walk_visits`.
-/
import Orthography.Proofs.Tree.Places

set_option autoImplicit false

namespace Orthography

/-! ## Visits -/

/-- Is the token at a place below none of those with the numbers? -/
def Place.isFree (ns : List Nat) (p : Place) : Bool := p.above.all (·.1 ∉ ns)

theorem Place.isFree_iff {p : Place} {ns : List Nat} :
    p.isFree ns = true ↔ ∀ a ∈ p.above, a.1 ∉ ns := by
  simp [isFree]

/-- Which places are free depends only on the tokens above them. -/
theorem Place.filter_isFree_congr {places : List Place} {ns ns' : List Nat}
    (h : ∀ p ∈ places, ∀ a ∈ p.above, a.1 ∈ ns ↔ a.1 ∈ ns') :
    places.filter (isFree ns) = places.filter (isFree ns') := by
  apply List.filter_congr
  intro p hp
  rw [Bool.eq_iff_iff, isFree_iff, isFree_iff]
  exact forall₂_congr fun a ha => not_congr (h p hp a ha)

/-- One call of a visitor. -/
structure Visit (σ : Type) where
  /-- The state the visitor was in. -/
  state : σ
  token : Token
  answer : Directive

/-- The visitor that notes down its visits. -/
def Visitor.recording {σ : Type} (visit : Visitor σ) : Visitor (σ × List (Visit σ)) :=
  fun (s, noted) t => (((visit s t).1, noted ++ [⟨s, t, (visit s t).2⟩]), (visit s t).2)

namespace Token

variable {σ : Type} (visit : Visitor σ)

mutual

/-- The visits to a token and to what is below it, each with the number of its token; the numbers go
on from `n`. -/
def visits (s : σ) (n : Nat) : Token → List (Nat × Visit σ)
  | ⟨kind, text, offset, leading, trailing, children⟩ =>
    let t : Token := ⟨kind, text, offset, leading, trailing, children⟩
    (n, ⟨s, t, (visit s t).2⟩) ::
      match visit s t with
      | (s, .visitChildren) => visitsAll s (n + 1) children
      | (_, .skipChildren) => []

/-- The same for a row of tokens. -/
def visitsAll (s : σ) (n : Nat) : List Token → List (Nat × Visit σ)
  | [] => []
  | t :: rest =>
    visits s n t ++ visitsAll (traverse visit s t) (n + t.descendants.length) rest

end

variable {visit}

theorem visitsAll_cons_of_visit {s s' : σ} {t : Token} (h : visit s t = (s', .visitChildren))
    (n : Nat) (rest : List Token) :
    visitsAll visit s n (t :: rest)
      = (n, ⟨s, t, .visitChildren⟩) :: (visitsAll visit s' (n + 1) t.children
        ++ visitsAll visit (traverseAll visit s' t.children) (n + 1 + countAll t.children)
          rest) := by
  rw [visitsAll, traverse_of_visit h, length_descendants, ← Nat.add_assoc]
  cases t
  simp only [visits, h, List.cons_append]

theorem visitsAll_cons_of_skip {s s' : σ} {t : Token} (h : visit s t = (s', .skipChildren))
    (n : Nat) (rest : List Token) :
    visitsAll visit s n (t :: rest)
      = (n, ⟨s, t, .skipChildren⟩) :: visitsAll visit s' (n + 1 + countAll t.children) rest := by
  rw [visitsAll, traverse_of_skip h, length_descendants, ← Nat.add_assoc]
  cases t
  simp only [visits, h, List.cons_append, List.nil_append]

variable (visit) in
/-- What holds of no tokens, and of a row if it holds of what the walk gets to behind the visit to
its first token, holds of every row, whatever the state. -/
@[elab_as_elim]
theorem visitRec {P : σ → List Token → Prop} (nil : ∀ s, P s [])
    (visited : ∀ s s' t rest, visit s t = (s', .visitChildren) → P s' t.children →
      P (traverseAll visit s' t.children) rest → P s (t :: rest))
    (skipped : ∀ s s' t rest, visit s t = (s', .skipChildren) → P s' rest → P s (t :: rest))
    (s : σ) (row : List Token) : P s row := by
  induction row using rowRec generalizing s with
  | nil => exact nil s
  | cons t rest hbelow hbehind =>
    rcases hvisit : visit s t with ⟨s', answer⟩
    rcases answer with _ | _
    · exact visited s s' t rest hvisit (hbelow s') (hbehind _)
    · exact skipped s s' t rest hvisit (hbehind s')

/-! ## The loop -/

variable (visit) in
/-- A run of the loop of a walk: what is on the stack, the calls that are made, and the state in
which the loop leaves off. Each pass visits the token on top and puts its children in its place, if
the visitor wants them. -/
inductive Loop : σ → List Token → List (Visit σ) → σ → Prop where
  /-- The stack is empty. -/
  | done (s : σ) : Loop s [] [] s
  | visited {s s' last : σ} {t : Token} {rest : List Token} {calls : List (Visit σ)}
      (hvisit : visit s t = (s', .visitChildren))
      (hrest : Loop s' (t.children ++ rest) calls last) :
      Loop s (t :: rest) (⟨s, t, .visitChildren⟩ :: calls) last
  | skipped {s s' last : σ} {t : Token} {rest : List Token} {calls : List (Visit σ)}
      (hvisit : visit s t = (s', .skipChildren)) (hrest : Loop s' rest calls last) :
      Loop s (t :: rest) (⟨s, t, .skipChildren⟩ :: calls) last

/-- From a stack there is one run at most. Each pass is settled by the top of the stack and by what
the visitor says of it. -/
theorem Loop.unique {s last last' : σ} {stack : List Token} {calls calls' : List (Visit σ)}
    (h : Loop visit s stack calls last) (h' : Loop visit s stack calls' last') :
    calls = calls' ∧ last = last' := by
  induction h generalizing calls' last' with
  | done s =>
    rcases h' with _ | _ | _
    exact ⟨rfl, rfl⟩
  | visited hvisit hrest ih =>
    rcases h' with _ | ⟨hvisit', hrest'⟩ | ⟨hvisit', -⟩
    · obtain ⟨rfl, -⟩ := Prod.ext_iff.mp (hvisit.symm.trans hvisit')
      obtain ⟨rfl, rfl⟩ := ih hrest'
      exact ⟨rfl, rfl⟩
    · exact absurd (congrArg Prod.snd (hvisit.symm.trans hvisit')) (by simp)
  | skipped hvisit hrest ih =>
    rcases h' with _ | ⟨hvisit', -⟩ | ⟨hvisit', hrest'⟩
    · exact absurd (congrArg Prod.snd (hvisit.symm.trans hvisit')) (by simp)
    · obtain ⟨rfl, -⟩ := Prod.ext_iff.mp (hvisit.symm.trans hvisit')
      obtain ⟨rfl, rfl⟩ := ih hrest'
      exact ⟨rfl, rfl⟩

/-- A row on top of a stack is visited as the recursion does it, and then the loop goes on with
what lies below it. -/
theorem loop_append {last : σ} {rest : List Token} {calls : List (Visit σ)} (s : σ)
    (row : List Token) (n : Nat) (hrest : Loop visit (traverseAll visit s row) rest calls last) :
    Loop visit s (row ++ rest) ((visitsAll visit s n row).map Prod.snd ++ calls) last := by
  induction s, row using visitRec visit generalizing n rest calls with
  | nil s => exact hrest
  | visited s s' t row hvisit hbelow hbehind =>
    rw [traverseAll, traverse_of_visit hvisit] at hrest
    rw [visitsAll_cons_of_visit hvisit, List.map_cons, List.map_append, List.cons_append,
      List.cons_append, List.append_assoc]
    -- the children go on top of what is left of the row
    exact .visited hvisit (hbelow _ (hbehind _ hrest))
  | skipped s s' t row hvisit hbehind =>
    rw [traverseAll, traverse_of_skip hvisit] at hrest
    rw [visitsAll_cons_of_skip hvisit, List.map_cons, List.cons_append, List.cons_append]
    exact .skipped hvisit (hbehind _ hrest)

/-- **The loop.** It ends, and its calls are the visits of the recursion. -/
theorem loop_iff {s last : σ} {row : List Token} {calls : List (Visit σ)} (n : Nat) :
    Loop visit s row calls last
      ↔ calls = (visitsAll visit s n row).map Prod.snd ∧ last = traverseAll visit s row := by
  have hdone : Loop visit (traverseAll visit s row) [] [] (traverseAll visit s row) := .done _
  have hloop := loop_append s row n hdone
  rw [List.append_nil, List.append_nil] at hloop
  constructor
  · intro h
    exact h.unique hloop
  · rintro ⟨rfl, rfl⟩
    exact hloop

/-! ## What a visitor can note down -/

/-- A visitor that is walked over a row notes down the visits of the recursion. So what is said of
the list of visits is said of what a visitor lives to see. -/
theorem traverseAll_recording (s : σ) (row : List Token) (n : Nat) (noted : List (Visit σ)) :
    traverseAll visit.recording (s, noted) row
      = (traverseAll visit s row, noted ++ (visitsAll visit s n row).map Prod.snd) := by
  induction s, row using visitRec visit generalizing n noted with
  | nil s => simp [traverseAll, visitsAll]
  | visited s s' t row hvisit hbelow hbehind =>
    have hrecording : visit.recording (s, noted) t
        = ((s', noted ++ [⟨s, t, .visitChildren⟩]), .visitChildren) := by
      rw [Visitor.recording, hvisit]
    rw [traverseAll, traverse_of_visit hrecording, hbelow (n + 1),
      hbehind (n + 1 + countAll t.children), visitsAll_cons_of_visit hvisit, traverseAll,
      traverse_of_visit hvisit]
    simp
  | skipped s s' t row hvisit hbehind =>
    have hrecording : visit.recording (s, noted) t
        = ((s', noted ++ [⟨s, t, .skipChildren⟩]), .skipChildren) := by
      rw [Visitor.recording, hvisit]
    rw [traverseAll, traverse_of_skip hrecording, hbehind (n + 1 + countAll t.children),
      visitsAll_cons_of_skip hvisit, traverseAll, traverse_of_skip hvisit]
    simp

/-! ## Which tokens are visited -/

theorem getElem?_descendantsAll_below {t : Token} {row : List Token} {i : Nat} {d : Token}
    (h : (descendantsAll t.children)[i]? = some d) :
    (descendantsAll (t :: row))[1 + i]? = some d := by
  rw [descendantsAll_cons, Nat.add_comm, List.getElem?_cons_succ,
    List.getElem?_append_left (List.getElem?_eq_some_iff.mp h).1, h]

theorem getElem?_descendantsAll_behind (t : Token) (row : List Token) (i : Nat) :
    (descendantsAll (t :: row))[1 + countAll t.children + i]? = (descendantsAll row)[i]? := by
  rw [descendantsAll_cons, Nat.add_assoc, Nat.add_comm, List.getElem?_cons_succ, countAll,
    List.getElem?_append_right (Nat.le_add_right ..), Nat.add_sub_cancel_left]

/-- A visited token is the token of the row with that number. Numbers count all tokens in document
order, also those that are passed over. -/
theorem exists_of_mem_visitsAll {s : σ} {row : List Token} {n : Nat} {v : Nat × Visit σ}
    (h : v ∈ visitsAll visit s n row) :
    ∃ i, v.1 = n + i ∧ (descendantsAll row)[i]? = some v.2.token := by
  induction s, row using visitRec visit generalizing n with
  | nil s => simp [visitsAll] at h
  | visited s s' t row hvisit hbelow hbehind =>
    rw [visitsAll_cons_of_visit hvisit, List.mem_cons, List.mem_append] at h
    rcases h with rfl | h | h
    · exact ⟨0, rfl, by rw [descendantsAll_cons]; rfl⟩
    · obtain ⟨i, hi, htoken⟩ := hbelow h
      exact ⟨1 + i, by omega, getElem?_descendantsAll_below htoken⟩
    · obtain ⟨i, hi, htoken⟩ := hbehind h
      exact ⟨1 + countAll t.children + i, by omega,
        (getElem?_descendantsAll_behind t row i).trans htoken⟩
  | skipped s s' t row hvisit hbehind =>
    rw [visitsAll_cons_of_skip hvisit, List.mem_cons] at h
    rcases h with rfl | h
    · exact ⟨0, rfl, by rw [descendantsAll_cons]; rfl⟩
    · obtain ⟨i, hi, htoken⟩ := hbehind h
      exact ⟨1 + countAll t.children + i, by omega,
        (getElem?_descendantsAll_behind t row i).trans htoken⟩

/-- The numbers of the visited tokens are those of the row. -/
theorem bounds_of_mem_visitsAll {s : σ} {row : List Token} {n : Nat} {v : Nat × Visit σ}
    (h : v ∈ visitsAll visit s n row) : n ≤ v.1 ∧ v.1 < n + countAll row := by
  obtain ⟨i, hi, htoken⟩ := exists_of_mem_visitsAll h
  have hlt : i < countAll row := (List.getElem?_eq_some_iff.mp htoken).1
  omega

/-! ## Which tokens are passed over -/

/-- The numbers of the tokens whose children the visitor did not want. -/
def skips (visits : List (Nat × Visit σ)) : List Nat :=
  (visits.filter (·.2.answer = .skipChildren)).map Prod.fst

theorem skips_append (vs more : List (Nat × Visit σ)) :
    skips (vs ++ more) = skips vs ++ skips more := by
  rw [skips, List.filter_append, List.map_append]
  rfl

theorem bounds_of_mem_skips {s : σ} {row : List Token} {n m : Nat}
    (h : m ∈ skips (visitsAll visit s n row)) : n ≤ m ∧ m < n + countAll row := by
  obtain ⟨v, hv, rfl⟩ := List.mem_map.mp h
  exact bounds_of_mem_visitsAll (List.mem_filter.mp hv).1

variable (visit) in
/-- A token before a row is below none of its tokens. -/
theorem isFree_skips {p : Place} {n : Nat} (habove : ∀ a ∈ p.above, a.1 < n) (s : σ)
    (row : List Token) : p.isFree (skips (visitsAll visit s n row)) = true := by
  rw [Place.isFree_iff]
  intro a ha hm
  have := habove a ha
  have := bounds_of_mem_skips hm
  omega

/-- What is above the places of a row is in no other row. -/
theorem notMem_skips {above : List (Nat × Token)} {n k : Nat} {row other : List Token}
    (habove : ∀ a ∈ above, a.1 < k ∨ k + countAll other ≤ a.1)
    (hrows : n + countAll row ≤ k ∨ k + countAll other ≤ n) {p : Place}
    (hp : p ∈ placesAll above n row) (s : σ) :
    ∀ a ∈ p.above, a.1 ∉ skips (visitsAll visit s k other) := by
  intro a ha hm
  have hm := bounds_of_mem_skips hm
  rcases bounds_of_mem_placesAll hp a ha with hmem | hbounds
  · have := habove a hmem
    omega
  · omega

variable (visit) in
/-- **What is visited.** The visited tokens are those of the row that are below no token whose
children the visitor did not want. -/
theorem map_fst_visitsAll (s : σ) (row : List Token) {above : List (Nat × Token)} {n : Nat}
    (habove : ∀ a ∈ above, a.1 < n) :
    (visitsAll visit s n row).map Prod.fst
      = ((placesAll above n row).filter
          (Place.isFree (skips (visitsAll visit s n row)))).map (·.number) := by
  induction s, row using visitRec visit generalizing above n with
  | nil s => simp [visitsAll, placesAll]
  | visited s s' t row hvisit hbelow hbehind =>
    have hchild : ∀ a ∈ (n, t.shallow) :: above, a.1 < n + 1 :=
      List.forall_mem_cons.mpr ⟨Nat.lt_succ_self n, fun a ha => Nat.lt_succ_of_lt (habove a ha)⟩
    have hlater : ∀ a ∈ above, a.1 < n + 1 + countAll t.children := fun a ha =>
      Nat.lt_of_lt_of_le (habove a ha) (by omega)
    have hfirst := isFree_skips visit (p := ⟨n, above, t.shallow⟩) habove s (t :: row)
    have hskips : skips (visitsAll visit s n (t :: row))
        = skips (visitsAll visit s' (n + 1) t.children) ++ skips (visitsAll visit
          (traverseAll visit s' t.children) (n + 1 + countAll t.children) row) := by
      rw [visitsAll_cons_of_visit hvisit]
      exact skips_append _ _
    -- what is above the children is not behind them, and the other way round
    have hrow : ∀ p ∈ placesAll ((n, t.shallow) :: above) (n + 1) t.children, ∀ a ∈ p.above,
        a.1 ∈ skips (visitsAll visit s n (t :: row))
          ↔ a.1 ∈ skips (visitsAll visit s' (n + 1) t.children) := by
      intro p hp a ha
      rw [hskips, List.mem_append, or_iff_left]
      refine notMem_skips (fun a ha => Or.inl ?_) (Or.inl (Nat.le_refl _)) hp _ a ha
      exact Nat.lt_of_lt_of_le (hchild a ha) (Nat.le_add_right ..)
    have hrest : ∀ p ∈ placesAll above (n + 1 + countAll t.children) row, ∀ a ∈ p.above,
        a.1 ∈ skips (visitsAll visit s n (t :: row))
          ↔ a.1 ∈ skips (visitsAll visit (traverseAll visit s' t.children)
            (n + 1 + countAll t.children) row) := by
      intro p hp a ha
      rw [hskips, List.mem_append, or_iff_right]
      refine notMem_skips (fun a ha => Or.inl ?_) (Or.inr (Nat.le_refl _)) hp _ a ha
      exact Nat.lt_succ_of_lt (habove a ha)
    rw [placesAll_cons, List.filter_cons_of_pos hfirst, List.filter_append,
      Place.filter_isFree_congr hrow, Place.filter_isFree_congr hrest,
      visitsAll_cons_of_visit hvisit, List.map_cons, List.map_append, hbelow hchild,
      hbehind hlater, List.map_cons, List.map_append]
  | skipped s s' t row hvisit hbehind =>
    have hlater : ∀ a ∈ above, a.1 < n + 1 + countAll t.children := fun a ha =>
      Nat.lt_of_lt_of_le (habove a ha) (by omega)
    have hfirst := isFree_skips visit (p := ⟨n, above, t.shallow⟩) habove s (t :: row)
    have hskips : skips (visitsAll visit s n (t :: row))
        = n :: skips (visitsAll visit s' (n + 1 + countAll t.children) row) := by
      rw [visitsAll_cons_of_skip hvisit]
      rfl
    have hrow : (placesAll ((n, t.shallow) :: above) (n + 1) t.children).filter
        (Place.isFree (skips (visitsAll visit s n (t :: row)))) = [] := by
      rw [List.filter_eq_nil_iff, hskips]
      intro p hp hfree
      have hmem := above_subset_of_mem_placesAll hp List.mem_cons_self
      exact Place.isFree_iff.mp hfree _ hmem List.mem_cons_self
    have hrest : ∀ p ∈ placesAll above (n + 1 + countAll t.children) row, ∀ a ∈ p.above,
        a.1 ∈ skips (visitsAll visit s n (t :: row))
          ↔ a.1 ∈ skips (visitsAll visit s' (n + 1 + countAll t.children) row) := by
      intro p hp a ha
      rw [hskips, List.mem_cons, or_iff_right]
      rcases bounds_of_mem_placesAll hp a ha with hmem | hbounds
      · exact Nat.ne_of_lt (habove a hmem)
      · omega
    rw [placesAll_cons, List.filter_cons_of_pos hfirst, List.filter_append, hrow,
      Place.filter_isFree_congr hrest, visitsAll_cons_of_skip hvisit, List.map_cons, hbehind hlater]
    rfl

/-! ## Document order with a stack -/

/-- The tokens that a loop with a stack gives out, a token's children going on top of what is
left. -/
def descendantsStack : List Token → List Token
  | [] => []
  | t :: rest => t :: descendantsStack (t.children ++ rest)
termination_by stack => countAll stack
decreasing_by simp only [countAll_cons]; omega

theorem descendantsStack_eq (stack : List Token) :
    descendantsStack stack = descendantsAll stack := by
  induction stack using descendantsStack.induct with
  | case1 => rw [descendantsStack, descendantsAll]
  | case2 t rest ih => rw [descendantsStack, ih, descendantsAll_append, descendantsAll_cons]

end Token

namespace Tree

/-- The tokens of a tree by a loop with a stack, which begins anew at each top-level token. -/
def descendantsByRoot (tree : Tree) : List Token :=
  tree.roots.flatMap fun t => Token.descendantsStack [t]

theorem descendantsByRoot_eq (tree : Tree) : tree.descendantsByRoot = tree.descendants := by
  rw [descendantsByRoot, descendants]
  induction tree.roots with
  | nil => rfl
  | cons t rest ih =>
    rw [List.flatMap_cons, ih, Token.descendantsStack_eq, ← Token.descendantsAll_append,
      List.singleton_append]

/-! ## Walks over a tree -/

variable {σ : Type}

/-- The visits of a walk over a tree, each with the number of its token in document order. -/
def visits (tree : Tree) (visit : Visitor σ) (s : σ) : List (Nat × Visit σ) :=
  Token.visitsAll visit s 0 tree.roots

/-- The calls of a walk over a tree. -/
def calls (tree : Tree) (visit : Visitor σ) (s : σ) : List (Visit σ) :=
  (tree.visits visit s).map Prod.snd

theorem getElem?_of_mem_visits {tree : Tree} {visit : Visitor σ} {s : σ} {v : Nat × Visit σ}
    (h : v ∈ tree.visits visit s) : tree.descendants[v.1]? = some v.2.token := by
  obtain ⟨i, hi, htoken⟩ := Token.exists_of_mem_visitsAll h
  rw [hi, Nat.zero_add]
  exact htoken

/-- The tokens of the visits are those of the tree at the places that are not passed over. -/
theorem map_token_visits (tree : Tree) (visit : Visitor σ) (s : σ) :
    (tree.visits visit s).map (fun v => (v.1, some v.2.token))
      = (tree.places.filter (Place.isFree (Token.skips (tree.visits visit s)))).map
        fun p => (p.number, tree.descendants[p.number]?) := by
  have hnumbers : (tree.visits visit s).map Prod.fst = _ :=
    Token.map_fst_visitsAll visit s tree.roots (fun _ ha => absurd ha List.not_mem_nil)
  calc (tree.visits visit s).map (fun v => (v.1, some v.2.token))
      = ((tree.visits visit s).map Prod.fst).map fun n => (n, tree.descendants[n]?) := by
        rw [List.map_map]
        apply List.map_congr_left
        intro v hv
        rw [Function.comp_apply, getElem?_of_mem_visits hv]
    _ = _ := by
        rw [hnumbers, List.map_map]
        rfl

/-- A walk that skips nothing visits the tokens of the tree in document order. -/
theorem map_token_calls {tree : Tree} {visit : Visitor σ} {s : σ}
    (h : ∀ v ∈ tree.calls visit s, v.answer = .visitChildren) :
    (tree.calls visit s).map (·.token) = tree.descendants := by
  have hskips : Token.skips (tree.visits visit s) = [] := by
    rw [Token.skips, List.map_eq_nil_iff, List.filter_eq_nil_iff]
    intro v hv
    rw [h v.2 (List.mem_map_of_mem hv)]
    simp
  -- with no skipped token every place is free, so the visited ones are all
  have hfree : tree.places.filter (Place.isFree []) = tree.places :=
    List.filter_eq_self.mpr fun p _ => Place.isFree_iff.mpr fun _ _ => List.not_mem_nil
  have htokens := congrArg (List.map Prod.snd) (tree.map_token_visits visit s)
  rw [hskips, hfree] at htokens
  apply (List.map_inj_right fun _ _ => Option.some.inj).mp
  calc ((tree.calls visit s).map (·.token)).map some
      = (tree.places.map (·.number)).map (tree.descendants[·]?) := by
        simpa [calls, List.map_map, Function.comp_def] using htokens
    _ = tree.descendants.map some := by
        rw [tree.map_number_places]
        apply List.ext_getElem?
        intro i
        by_cases hi : i < tree.descendants.length
        · simp [hi]
        · simp [Nat.le_of_not_lt hi]

/-- **A walk visits in document order.** For every visitor, whatever its answers depend on, the loop
ends and makes the calls of the recursion, in their order and with their states. Document order is
itself a loop for each top-level token. The visited tokens are those of the tree where the visitor
wants all children, and in general those of the tree less the ones below a token whose children it
did not want. -/
theorem walk_visits (tree : Tree) (visit : Visitor σ) (s : σ) :
    (∀ calls last, Token.Loop visit s tree.roots calls last
        ↔ calls = tree.calls visit s ∧ last = tree.traverse visit s)
      ∧ tree.walk visit s = tree.traverse visit s
      ∧ tree.walk visit.recording (s, []) = (tree.traverse visit s, tree.calls visit s)
      ∧ tree.descendantsByRoot = tree.descendants
      ∧ ((∀ v ∈ tree.calls visit s, v.answer = .visitChildren) →
        (tree.calls visit s).map (·.token) = tree.descendants)
      ∧ (tree.visits visit s).map (fun v => (v.1, some v.2.token))
        = (tree.places.filter (Place.isFree (Token.skips (tree.visits visit s)))).map
          fun p => (p.number, tree.descendants[p.number]?) := by
  refine ⟨fun _ _ => Token.loop_iff 0, tree.walk_eq visit s, ?_, tree.descendantsByRoot_eq,
    map_token_calls, tree.map_token_visits visit s⟩
  rw [walk_eq, traverse, Token.traverseAll_recording s tree.roots 0 [], List.nil_append]
  rfl

/-- A visitor that counts its visits and passes over the children of the second token it sees, and
one that passes over nothing. -/
theorem walk_visits_counting :
    let bracket : Token := { kind := .operator, text := ['('], offset := 1, children :=
      [{ kind := .identifier, text := ['b'], offset := 2 },
        { kind := .operator, text := [')'], offset := 3 }] }
    let tree : Tree := ⟨[], [{ kind := .identifier, text := ['a'], offset := 0, children :=
      [bracket, { kind := .number, text := ['1'], offset := 4 }] }], .endOfSource 5 []⟩
    let passing : Visitor Nat := fun n _ => (n + 1, if n = 1 then .skipChildren else .visitChildren)
    let patient : Visitor Nat := fun n _ => (n + 1, .visitChildren)
    (tree.walk passing.recording (0, [])).2.map (fun v => (v.state, v.token.text))
        = [(0, ['a']), (1, ['(']), (2, ['1']), (3, [])]
      ∧ (tree.calls patient 0).map (·.token) = tree.descendants := by
  intro bracket tree passing patient
  constructor
  · rw [(walk_visits tree passing 0).2.2.1]
    rfl
  · exact (walk_visits tree patient 0).2.2.2.2.1 (by decide)

end Tree

end Orthography
