/-
The tokens of a source, rule by rule.

`Lexeme.rewriting` finds the tokens by looking one lexeme ahead in what is left without marks for
indentation. Here the same is said by rules, each about what can stand next among lexemes as they
come, and no rule speaks of the conversion. Main statement, `Event.filter_isToken_ofLexemes_iff`:
the tokens fed to the builder are those that the rules give, and the rules give no others.

The rules leave no choice. Only a dollar sign looks ahead, and the two rules for it exclude each
other, so whatever the rules give is the rewriting (`Lexeme.Makes.eq_rewriting`); and there is a
rule for everything that can come next (`Lexeme.makes_rewriting`).
-/
import Mathlib.Data.List.Basic
import Orthography.Proofs.Parse.Rewriting

set_option autoImplicit false

namespace Orthography

namespace Lexeme

/-! ## The rules -/

/-- A mark for indentation. -/
def Marks (x : Lexeme) : Prop := x.kind = .indent ∨ x.kind = .dedent

/-- A lexeme that stands for no token, whatever its text is. -/
def Silent (x : Lexeme) : Prop :=
  x.Marks ∨ x.kind = .comment ∨ x.kind = .lineBreak ∨ x.kind = .newline

/-- Behind marks for indentation stands a name that begins at the offset. -/
def NameFollows (start : Nat) (rest : List Lexeme) : Prop :=
  ∃ marks name behind, (∀ x ∈ marks, x.Marks) ∧ rest = marks ++ ⟨.name, name, start⟩ :: behind

/-- The tokens that lexemes make. -/
inductive Makes : List Lexeme → List Event → Prop
  | done : Makes [] []
  | silent {x : Lexeme} {rest : List Lexeme} {out : List Event} (hsilent : x.Silent)
      (hrest : Makes rest out) : Makes (x :: rest) out
  /-- An error that is blank is left out. -/
  | blank {text : Text} {start : Nat} {rest : List Lexeme} {out : List Event}
      (hblank : ∀ c ∈ text, Unicode.isBlank c = true) (hrest : Makes rest out) :
      Makes (⟨.error, text, start⟩ :: rest) out
  /-- A dollar sign and a name right behind it are one token. -/
  | named {start : Nat} {marks : List Lexeme} {name : Text} {rest : List Lexeme}
      {out : List Event} (hmarks : ∀ x ∈ marks, x.Marks) (hrest : Makes rest out) :
      Makes (⟨.error, ['$'], start⟩ :: (marks ++ ⟨.name, name, start + 1⟩ :: rest))
        (.token .dollarIdentifier ('$' :: name) start :: out)
  | dollar {start : Nat} {rest : List Lexeme} {out : List Event}
      (halone : ¬ NameFollows (start + 1) rest) (hrest : Makes rest out) :
      Makes (⟨.error, ['$'], start⟩ :: rest) (.token .unknown ['$'] start :: out)
  /-- Any other error. -/
  | error {text : Text} {start : Nat} {rest : List Lexeme} {out : List Event}
      (hdollar : text ≠ ['$']) (hblank : ∃ c ∈ text, Unicode.isBlank c = false)
      (hrest : Makes rest out) :
      Makes (⟨.error, text, start⟩ :: rest) (.token .unknown text start :: out)
  /-- The letters before a literal and the literal itself adjoin. -/
  | marked {letters literal : Text} {start : Nat} {rest : List Lexeme} {out : List Event}
      (hne : letters ≠ []) (hletters : ∀ c ∈ letters, c.isAlpha = true)
      (hliteral : ∀ c ∈ literal.head?, c.isAlpha = false) (hrest : Makes rest out) :
      Makes (⟨.string, letters ++ literal, start⟩ :: rest)
        (.token .stringDelimiter letters start
          :: .token .stringLiteral literal (start + letters.length : Nat) :: out)
  | literal {text : Text} {start : Nat} {rest : List Lexeme} {out : List Event}
      (hliteral : ∀ c ∈ text.head?, c.isAlpha = false) (hrest : Makes rest out) :
      Makes (⟨.string, text, start⟩ :: rest) (.token .stringLiteral text start :: out)
  | keyword {name : Text} {start : Nat} {rest : List Lexeme} {out : List Event}
      (hkeyword : name ∈ keywords) (hrest : Makes rest out) :
      Makes (⟨.name, name, start⟩ :: rest) (.token .keyword name start :: out)
  | identifier {name : Text} {start : Nat} {rest : List Lexeme} {out : List Event}
      (hkeyword : name ∉ keywords) (hrest : Makes rest out) :
      Makes (⟨.name, name, start⟩ :: rest) (.token .identifier name start :: out)
  | number {text : Text} {start : Nat} {rest : List Lexeme} {out : List Event}
      (hrest : Makes rest out) :
      Makes (⟨.number, text, start⟩ :: rest) (.token .number text start :: out)
  | operator {text : Text} {start : Nat} {rest : List Lexeme} {out : List Event}
      (hrest : Makes rest out) :
      Makes (⟨.operator, text, start⟩ :: rest) (.token .operator text start :: out)

/-! ## Marks and names -/

theorem isLayout_iff {x : Lexeme} : x.isLayout = true ↔ x.Marks := by
  rw [isLayout, Bool.or_eq_true, decide_eq_true_eq, decide_eq_true_eq, Marks]

theorem names_iff {x : Lexeme} {dollar : Nat} :
    x.names dollar = true ↔ x = ⟨.name, x.text, dollar + 1⟩ := by
  constructor
  · intro h
    obtain ⟨hkind, hstart⟩ := of_names h
    obtain ⟨kind, text, start⟩ := x
    cases hkind
    cases hstart
    rfl
  · intro h
    rw [h]
    simp [names]

/-- Marks drop out, and so the name behind them comes next. -/
theorem filter_marks_append {marks : List Lexeme} (hmarks : ∀ x ∈ marks, x.Marks)
    (rest : List Lexeme) :
    (marks ++ rest).filter (!·.isLayout) = rest.filter (!·.isLayout) := by
  have hnone : marks.filter (!·.isLayout) = [] := by
    apply List.filter_eq_nil_iff.mpr
    intro x hx
    simp [isLayout_iff.mpr (hmarks x hx)]
  rw [List.filter_append, hnone, List.nil_append]

/-- A name follows if, of what is left without marks, the first is one. -/
theorem nameFollows_iff {start : Nat} {rest : List Lexeme} :
    NameFollows (start + 1) rest
      ↔ ∃ y ∈ (rest.filter (!·.isLayout)).head?, y.names start = true := by
  constructor
  · rintro ⟨marks, name, behind, hmarks, rfl⟩
    refine ⟨⟨.name, name, start + 1⟩, ?_, by simp [names]⟩
    rw [filter_marks_append hmarks]
    simp [isLayout]
  · rintro ⟨y, hy, hnames⟩
    obtain ⟨more, hmore⟩ := List.head?_eq_some_iff.mp hy
    obtain ⟨marks, behind, rfl, hmarks, -, -⟩ := List.filter_eq_cons_iff.mp hmore
    refine ⟨marks, y.text, behind, ?_, by rw [← names_iff.mp hnames]⟩
    intro x hx
    apply isLayout_iff.mp
    simpa using hmarks x hx

/-- A dollar sign that no name follows makes a token by itself. -/
theorem rewriting_dollar {start : Nat} {rest : List Lexeme}
    (halone : ¬ NameFollows (start + 1) rest) :
    rewriting (⟨.error, ['$'], start⟩ :: rest.filter (!·.isLayout))
      = .token .unknown ['$'] start :: rewriting (rest.filter (!·.isLayout)) := by
  rw [nameFollows_iff] at halone
  cases hrest : rest.filter (!·.isLayout) with
  | nil => rfl
  | cons y more =>
    have hnames : y.names start = false := by
      rw [Bool.eq_false_iff]
      intro hy
      exact halone ⟨y, by rw [hrest]; rfl, hy⟩
    rw [rewriting_cons_cons, hnames, Bool.and_false, if_neg Bool.false_ne_true]
    rfl

/-! ## What the rules give -/

/-- The letters before a string are those before its quote, however the string goes on. -/
theorem takeWhile_letters {letters literal : Text} (hletters : ∀ c ∈ letters, c.isAlpha = true)
    (hliteral : ∀ c ∈ literal.head?, c.isAlpha = false) :
    (letters ++ literal).takeWhile Char.isAlpha = letters
      ∧ (letters ++ literal).dropWhile Char.isAlpha = literal := by
  rw [List.takeWhile_append_of_pos hletters, List.dropWhile_append_of_pos hletters]
  cases literal with
  | nil => simp
  | cons c rest =>
    have hc := hliteral c rfl
    rw [List.takeWhile_cons_of_neg (by simp [hc]), List.dropWhile_cons_of_neg (by simp [hc])]
    simp

/-- A lexeme that is kept and is no dollar sign makes its own tokens. -/
theorem rewriting_filter_cons {x : Lexeme} (hlayout : x.isLayout = false)
    (hdollar : x.isDollar = false) (rest : List Lexeme) :
    rewriting ((x :: rest).filter (!·.isLayout))
      = x.tokens ++ rewriting (rest.filter (!·.isLayout)) := by
  rw [List.filter_cons_of_pos (by simp [hlayout]), rewriting_cons hdollar]

/-- **The rules give the rewriting.** The induction is on the derivation; what is left behind each
rule is rewritten as its remaining lexemes are. -/
theorem Makes.eq_rewriting {lexemes : List Lexeme} {out : List Event} (h : Makes lexemes out) :
    out = rewriting (lexemes.filter (!·.isLayout)) := by
  induction h with
  | done => rfl
  | @silent x rest out hsilent hrest ih =>
    rw [ih]
    -- marks are filtered out; the other silent lexemes are kept and rewritten to nothing
    rcases hsilent with hmarks | hsilent
    · rw [List.filter_cons_of_neg (by simp [isLayout_iff.mpr hmarks])]
    · have hkind : x.isLayout = false ∧ x.isDollar = false ∧ x.tokens = [] := by
        rcases hsilent with hkind | hkind | hkind <;> simp [isLayout, isDollar, tokens, hkind]
      rw [rewriting_filter_cons hkind.1 hkind.2.1, hkind.2.2, List.nil_append]
  | @blank text start rest out hblank hrest ih =>
    have hx : isBlankError ⟨.error, text, start⟩ = true := by
      simpa [isBlankError] using hblank
    rw [rewriting_filter_cons rfl (isDollar_of_isBlankError hx), tokens_of_isBlankError hx, ih,
      List.nil_append]
  | @named start marks name rest out hmarks hrest ih =>
    -- the name is next to the dollar sign once the marks between them are gone
    have hname : (⟨.name, name, start + 1⟩ : Lexeme).names start = true := by simp [names]
    rw [List.filter_cons_of_pos rfl, filter_marks_append hmarks, List.filter_cons_of_pos rfl,
      rewriting_cons_cons, hname, Bool.and_true, if_pos (by rfl), ih]
  | @dollar start rest out halone hrest ih =>
    rw [List.filter_cons_of_pos rfl, rewriting_dollar halone, ih]
  | @error text start rest out hdollar hblank hrest ih =>
    have hkept : isDollar ⟨.error, text, start⟩ = false := by simpa [isDollar] using hdollar
    have hx : isBlankError ⟨.error, text, start⟩ = false := by simpa [isBlankError] using hblank
    rw [rewriting_filter_cons rfl hkept, ih]
    simp [tokens, hx]
  | @marked letters literal start rest out hne hletters hliteral hrest ih =>
    -- a literal is cut at the end of its letters, none in the second case
    obtain ⟨htake, hdrop⟩ := takeWhile_letters hletters hliteral
    rw [rewriting_filter_cons rfl rfl, ih]
    simp [tokens, htake, hdrop, hne]
  | @literal text start rest out hliteral hrest ih =>
    obtain ⟨htake, hdrop⟩ := takeWhile_letters (List.forall_mem_nil _) hliteral
    rw [List.nil_append] at htake hdrop
    rw [rewriting_filter_cons rfl rfl, ih]
    simp [tokens, htake, hdrop]
  | keyword hkeyword hrest ih =>
    rw [rewriting_filter_cons rfl rfl, ih]
    simp [tokens, hkeyword]
  | identifier hkeyword hrest ih =>
    rw [rewriting_filter_cons rfl rfl, ih]
    simp [tokens, hkeyword]
  | number hrest ih => rw [rewriting_filter_cons rfl rfl, ih]; rfl
  | operator hrest ih => rw [rewriting_filter_cons rfl rfl, ih]; rfl

/-! ## There is always a rule -/

/-- A lexeme that is kept and is no dollar sign has a rule. There is one for each kind, so the cases
are those of the kind. -/
theorem makes_cons {x : Lexeme} (hlayout : x.isLayout = false) (hdollar : x.isDollar = false)
    {rest : List Lexeme} {out : List Event} (hrest : Makes rest out) :
    Makes (x :: rest) (x.tokens ++ out) := by
  obtain ⟨kind, text, start⟩ := x
  cases kind with
  | indent => cases hlayout
  | dedent => cases hlayout
  | comment => exact .silent (Or.inr (Or.inl rfl)) hrest
  | lineBreak => exact .silent (Or.inr (Or.inr (Or.inl rfl))) hrest
  | newline => exact .silent (Or.inr (Or.inr (Or.inr rfl))) hrest
  | number => exact .number hrest
  | operator => exact .operator hrest
  | name =>
    by_cases hkeyword : text ∈ keywords
    · simpa [tokens, hkeyword] using Makes.keyword hkeyword hrest
    · simpa [tokens, hkeyword] using Makes.identifier hkeyword hrest
  | error =>
    by_cases hblank : ∀ c ∈ text, Unicode.isBlank c = true
    · have hx : isBlankError ⟨.error, text, start⟩ = true := by simpa [isBlankError] using hblank
      rw [tokens_of_isBlankError hx]
      exact .blank hblank hrest
    · have hx : isBlankError ⟨.error, text, start⟩ = false := by
        simpa [isBlankError] using hblank
      have htext : text ≠ ['$'] := by simpa [isDollar] using hdollar
      simp only [tokens, hx]
      apply Makes.error htext _ hrest
      simpa using hblank
  | string =>
    -- the text is its letters and the literal behind them, which begins with no letter
    have hsplit : text.takeWhile Char.isAlpha ++ text.dropWhile Char.isAlpha = text :=
      List.takeWhile_append_dropWhile
    have hliteral : ∀ c ∈ (text.dropWhile Char.isAlpha).head?, c.isAlpha = false := by
      intro c hc
      have hnot := List.head?_dropWhile_not Char.isAlpha text
      rw [hc] at hnot
      exact hnot
    by_cases hletters : text.takeWhile Char.isAlpha = []
    · rw [hletters, List.nil_append] at hsplit
      rw [hsplit] at hliteral
      simpa [tokens, hletters, hsplit] using Makes.literal hliteral hrest
    · have hmakes := @Makes.marked _ _ start _ _ hletters
        (fun c hc => List.mem_takeWhile_imp hc) hliteral hrest
      rw [hsplit] at hmakes
      simpa [tokens, hletters] using hmakes

/-- **The rewriting is what the rules give.** A dollar sign takes its name along, so one rule may
use up two lexemes, and marks for indentation may stand between the two. -/
theorem makes_rewriting (lexemes : List Lexeme) :
    Makes lexemes (rewriting (lexemes.filter (!·.isLayout))) := by
  -- on the number of lexemes, since a dollar sign takes its name along
  induction hlength : lexemes.length using Nat.strongRecOn generalizing lexemes with
  | _ n ih =>
    cases lexemes with
    | nil => exact .done
    | cons x rest =>
      have hrest := ih rest.length (by simp [← hlength]) rest rfl
      cases hlayout : x.isLayout with
      | true =>
        rw [List.filter_cons_of_neg (by simp [hlayout])]
        exact .silent (Or.inl (isLayout_iff.mp hlayout)) hrest
      | false =>
        cases hdollar : x.isDollar with
        | false =>
          rw [rewriting_filter_cons hlayout hdollar]
          exact makes_cons hlayout hdollar hrest
        | true =>
          rw [eq_of_isDollar hdollar]
          by_cases hfollows : NameFollows (x.start + 1) rest
          · obtain ⟨marks, name, behind, hmarks, rfl⟩ := hfollows
            have hbehind : behind.length < n := by
              simp only [List.length_cons, List.length_append] at hlength
              omega
            have hmakes : Makes (⟨.error, ['$'], x.start⟩ :: (marks ++ ⟨.name, name, x.start + 1⟩
                :: behind)) _ := .named hmarks (ih behind.length hbehind behind rfl)
            rwa [← hmakes.eq_rewriting]
          · rw [List.filter_cons_of_pos rfl, rewriting_dollar hfollows]
            exact .dollar hfollows hrest

end Lexeme

/-- **Tokens by rules.** The tokens that any lexemes of a source feed to the builder, the last
dollar sign included, are in order exactly those that the rules give for the lexemes. -/
theorem Event.filter_isToken_ofLexemes_iff (source : Text) (lexemes : List Lexeme)
    (tokens : List Event) :
    (Event.ofLexemes source lexemes).filter Event.isToken = tokens
      ↔ Lexeme.Makes lexemes tokens := by
  rw [Event.tokens_ofLexemes]
  constructor
  · rintro rfl
    exact Lexeme.makes_rewriting lexemes
  · intro h
    exact h.eq_rewriting.symm

/-- Only the second dollar sign has a name right behind it. -/
example : (Event.ofLexemes "$$if $ x".toList (lex "$$if $ x".toList).lexemes).filter Event.isToken
    = [.token .unknown ['$'] 0, .token .dollarIdentifier "$if".toList 1, .token .unknown ['$'] 5,
      .token .identifier ['x'] 7] := by decide +kernel

end Orthography
