/-
Which token a question is about.

The acts of a check say what the oracle is asked and not why. Here every question has the token it
is about, by the number of the token in document order, and the part of the token whose text it is.
A token is asked about if no token above it holds a marker: its comments up to the first marker, and
if there is none its own text.

That these are the questions of a check is `Site.queries_checkTree`; it says for every tree that the
walk gets to exactly those places.
-/
import Orthography.Proofs.Lint.Coverage
import Orthography.Proofs.Tree.Places

set_option autoImplicit false

namespace Orthography

/-! ## Remarks -/

/-- What of a token a question is about. -/
inductive Part where
  /-- A comment before it. -/
  | leading
  /-- A comment behind code of the logical line that it begins. -/
  | trailing
  /-- Its own text. -/
  | text
  deriving DecidableEq, Repr

namespace Token

/-- The comments of a token in their order, each with the side on which it stands. -/
def remarks (t : Token) : List (Part × Text) :=
  (commentsOf t.leading).map (Part.leading, ·) ++ (commentsOf t.trailing).map (Part.trailing, ·)

theorem map_snd_remarks (t : Token) : t.remarks.map Prod.snd = t.comments := by
  rw [remarks, comments_eq, List.map_append, List.map_map, List.map_map]
  exact congrArg₂ (· ++ ·) (List.map_id _) (List.map_id _)

@[simp] theorem comments_shallow (t : Token) : t.shallow.comments = t.comments := rfl

/-- Leaving off at the first marker, with the sides or without them. -/
theorem map_snd_takeWhile_remarks (t : Token) (marks : Text → Bool) :
    (t.remarks.takeWhile (!marks ·.2)).map Prod.snd = t.comments.takeWhile (!marks ·) := by
  rw [← map_snd_remarks, List.takeWhile_map]
  rfl

end Token

namespace Lint

/-! ## Questions -/

/-- A question to the oracle and what it is about. -/
structure Question where
  /-- The number of the token in document order. -/
  token : Nat
  part : Part
  /-- What the oracle is asked. -/
  text : Text
  deriving DecidableEq, Repr

namespace Options

/-- Does a comment of the token hold the marker? -/
def stopsAt (options : Options) (t : Token) : Bool := t.comments.any options.marks

/-- The questions about the token at a place. -/
def questionsAt (options : Options) (p : Place) : List Question :=
  if p.above.any (options.stopsAt ·.2) then []
  else
    (if options.checkComments then
      (p.token.remarks.takeWhile (!options.marks ·.2)).map fun r =>
        ⟨p.number, r.1, Prose.ofRaw r.2⟩
    else [])
      ++ if options.checkTokens && p.token.kind.isCheckable && !options.stopsAt p.token then
          [⟨p.number, .text, Prose.ofRaw p.token.text⟩]
        else []

/-- The questions about all tokens of a tree. -/
def questions (options : Options) (tree : Tree) : List Question :=
  tree.places.flatMap options.questionsAt

/-- Below a token with a marker there are no questions. -/
theorem questionsAt_of_above {options : Options} {p : Place}
    (h : p.above.any (options.stopsAt ·.2) = true) : options.questionsAt p = [] := by
  rw [questionsAt, if_pos h]

theorem token_of_mem_questionsAt {options : Options} {p : Place} {q : Question}
    (h : q ∈ options.questionsAt p) : q.token = p.number := by
  rw [questionsAt] at h
  split at h
  · simp at h
  · rcases List.mem_append.mp h with h | h
    · split at h
      · obtain ⟨r, -, rfl⟩ := List.mem_map.mp h
        rfl
      · simp at h
    · split at h
      · rw [List.mem_singleton.mp h]
      · simp at h

/-- A question about a tree is about a comment of a token or about its text. -/
theorem raw_of_mem_questions {options : Options} {tree : Tree} {q : Question}
    (h : q ∈ options.questions tree) :
    ∃ t ∈ tree.descendants, (∃ comment ∈ t.comments, q.text = Prose.ofRaw comment)
      ∨ t.kind.isCheckable = true ∧ q.text = Prose.ofRaw t.text := by
  obtain ⟨p, hp, hq⟩ := List.mem_flatMap.mp h
  -- the walk has shallow tokens, and each is the outside of one in the tree
  have htoken : p.token ∈ tree.descendants.map Token.shallow := by
    rw [← tree.map_token_places]
    exact List.mem_map_of_mem hp
  obtain ⟨t, ht, hshallow⟩ := List.mem_map.mp htoken
  refine ⟨t, ht, ?_⟩
  rw [questionsAt, ← hshallow] at hq
  split at hq
  · cases hq
  · rcases List.mem_append.mp hq with hq | hq
    · split at hq
      · obtain ⟨r, hr, rfl⟩ := List.mem_map.mp hq
        refine Or.inl ⟨r.2, ?_, rfl⟩
        rw [← t.comments_shallow, ← Token.map_snd_remarks]
        exact List.mem_map_of_mem (List.takeWhile_subset _ hr)
      · cases hq
    · split at hq
      · next hchecked =>
        obtain rfl := List.mem_singleton.mp hq
        rw [Bool.and_eq_true, Bool.and_eq_true] at hchecked
        exact Or.inr ⟨hchecked.1.2, rfl⟩
      · cases hq

/-- About the text of a token nothing is asked if a comment of it holds the marker. About its
comments it is, up to that one. -/
theorem part_ne_text_of_stopsAt {options : Options} {p : Place}
    (hstops : options.stopsAt p.token = true) {q : Question} (h : q ∈ options.questionsAt p) :
    q.part ≠ .text := by
  rw [questionsAt, hstops, Bool.not_true, Bool.and_false, if_neg Bool.false_ne_true,
    List.append_nil] at h
  split at h
  · simp at h
  · split at h
    · obtain ⟨r, hr, rfl⟩ := List.mem_map.mp h
      rcases List.mem_append.mp (List.takeWhile_subset _ hr) with hr | hr
      · obtain ⟨comment, -, rfl⟩ := List.mem_map.mp hr
        simp
      · obtain ⟨comment, -, rfl⟩ := List.mem_map.mp hr
        simp
    · simp at h

end Options

/-! ## Questions of a check -/

namespace Site

variable {options : Options}

theorem flatMap_questionsAt_of_above {above : List (Nat × Token)}
    (h : above.any (options.stopsAt ·.2) = true) (n : Nat) (row : List Token) :
    (Token.placesAll above n row).flatMap options.questionsAt = [] := by
  induction row using Token.rowRec generalizing above n with
  | nil => rfl
  | cons t rest hbelow hbehind =>
    rw [Token.placesAll_cons, List.flatMap_cons, List.flatMap_append,
      Options.questionsAt_of_above h, hbelow (by simp [h]), hbehind h]
    rfl

/-- The questions about a token that has nothing marked above it, in the words of the recursion. So
the two need to be compared at single tokens only. -/
theorem map_text_questionsAt {p : Place} (h : p.above.any (options.stopsAt ·.2) = false) :
    (options.questionsAt p).map (·.text)
      = (if options.checkComments then
          (p.token.comments.takeWhile (!options.marks ·)).map Prose.ofRaw
        else [])
        ++ if options.checkTokens && p.token.kind.isCheckable && !options.stopsAt p.token then
            [Prose.ofRaw p.token.text]
          else [] := by
  rw [Options.questionsAt, if_neg (by simp [h]), List.map_append]
  congr 1
  · split
    · rw [List.map_map, ← p.token.map_snd_takeWhile_remarks, List.map_map]
      rfl
    · rfl
  · split <;> rfl

/-- What the recursion over a row asks are the questions about its places. A place knows which
tokens are above it, so a question can be judged without following the recursion down to it. -/
theorem queries_referenceAll_eq (site : Site) {above : List (Nat × Token)}
    (h : above.any (options.stopsAt ·.2) = false) (n : Nat) (row : List Token) :
    Act.queries (site.referenceAll options row)
      = ((Token.placesAll above n row).flatMap options.questionsAt).map (·.text) := by
  induction row using Token.rowRec generalizing above n with
  | nil => rfl
  | cons t rest hbelow hbehind =>
    have hcomments : Act.queries (if options.checkComments then
          (t.comments.takeWhile (!options.marks ·)).flatMap (site.asked · t.offset)
        else [])
        = if options.checkComments then
            (t.comments.takeWhile (!options.marks ·)).map Prose.ofRaw
          else [] := by
      split
      · exact queries_flatMap_asked site _ t.offset
      · rfl
    have hplace := map_text_questionsAt (p := ⟨n, above, t.shallow⟩) h
    simp only [Token.comments_shallow] at hplace
    rw [referenceAll, Act.queries_append, hbehind h, Token.placesAll_cons, List.flatMap_cons,
      List.flatMap_append, List.map_append, List.map_append, hplace, ← List.append_assoc]
    congr 1
    cases hstops : t.comments.any options.marks with
    | true =>
      -- the marker stops the check of the token and of all below it
      have hshallow : options.stopsAt t.shallow = true := hstops
      rw [reference_of_marked hstops, hcomments,
        flatMap_questionsAt_of_above (by simp [hshallow]), hshallow]
      simp
    | false =>
      have hshallow : options.stopsAt t.shallow = false := hstops
      have hown : Act.queries (if options.checkTokens && t.kind.isCheckable then
            site.asked t.text t.start
          else [])
          = if options.checkTokens && t.kind.isCheckable then [Prose.ofRaw t.text] else [] := by
        split
        · exact queries_asked site t.text t.start
        · rfl
      have hbelow := @hbelow ((n, t.shallow) :: above) (by simp [hshallow, h]) (n + 1)
      rw [reference_of_unmarked hstops, Act.queries_append, Act.queries_append, hcomments, hown,
        hbelow, hshallow, Bool.not_false, Bool.and_true, List.append_assoc]
      rfl

/-- **Questions.** The oracle is asked the questions about the tokens of the tree, in that order and
each once. -/
theorem queries_checkTree (site : Site) (options : Options) (tree : Tree) :
    Act.queries (site.checkTree options tree) = (options.questions tree).map (·.text) := by
  rw [← Act.queries_visible, visible_checkTree]
  exact queries_referenceAll_eq site rfl 0 tree.roots

end Site

end Lint

end Orthography
