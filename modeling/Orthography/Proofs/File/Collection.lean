/-
Which files paths stand for.

A path leads to a file, to a directory, or nowhere. Where one leads nowhere no files are given at
all (`collectFiles_eq_error_iff`); else each path gives its files, one after the other. What a
directory gives is fixed by two things: which files are wanted (`Collect.mem_filesBelow_keeps`) and
that they come in the order of their names, each once (`Store.filesBelow_pairwise`). So nothing
depends on the order in which the entries of a directory are listed (`Store.filesBelow_eq_walk`).
Main statement, `collectFiles_iff`.
-/
import Mathlib.Data.Char
import Mathlib.Data.List.Forall2
import Mathlib.Data.List.Lex
import Mathlib.Data.List.Sort
import Orthography.File.Collect

set_option autoImplicit false

namespace Orthography

/-! ## The order of names -/

/-- The comparison of names that runs is the order of texts by the code points of their characters.
-/
theorem Path.nameBefore_iff (a b : Text) : nameBefore a b = true ↔ a < b := by
  rw [nameBefore, List.lex_eq_true_iff_lex]
  simp only [decide_eq_true_eq]
  exact Iff.rfl

/-- Names are compared one after the other, and each by its characters. As a linear order this has
all that sorting needs. -/
theorem Path.before_iff (a b : List Text) : before a b = true ↔ a < b := by
  rw [before, List.lex_eq_true_iff_lex]
  simp only [nameBefore_iff]
  exact Iff.rfl

/-- What is left once repetitions are gone has none. The induction is on the length, as the rest is
filtered before the next step. -/
theorem nodup_eraseDups {α : Type} [BEq α] [LawfulBEq α] (l : List α) : l.eraseDups.Nodup := by
  induction hlength : l.length using Nat.strongRecOn generalizing l with
  | _ k ih =>
    cases l with
    | nil => simp
    | cons a rest =>
      have hfilter := List.length_filter_le (fun b => !b == a) rest
      rw [List.length_cons] at hlength
      rw [List.eraseDups_cons, List.nodup_cons]
      exact ⟨by simp, ih _ (by omega) _ rfl⟩

/-- Names without repetition, once they are sorted, go strictly up. Sorting alone only gives that
none goes down; that no two are the same comes from the names. -/
theorem Path.pairwise_mergeSort {entries : List (List Text)} (h : entries.Nodup) :
    (entries.mergeSort fun a b => !before b a).Pairwise (· < ·) := by
  have hle : ∀ a b : List Text, (!before b a) = true ↔ a ≤ b := by
    intro a b
    rw [Bool.not_eq_true', ← Bool.not_eq_true, before_iff, not_lt]
  have htrans : ∀ a b c : List Text, (!before b a) = true → (!before c b) = true →
      (!before c a) = true := fun a b c hab hbc =>
    (hle a c).mpr (le_trans ((hle a b).mp hab) ((hle b c).mp hbc))
  have htotal : ∀ a b : List Text, (!before b a || !before a b) = true := by
    intro a b
    rw [Bool.or_eq_true, hle, hle]
    exact le_total a b
  have hsorted := List.pairwise_mergeSort htrans htotal entries
  have hnodup := (List.mergeSort_perm entries fun a b => !before b a).nodup_iff.mpr h
  exact (hsorted.and hnodup).imp fun ⟨hab, hne⟩ => lt_of_le_of_ne ((hle _ _).mp hab) hne

namespace Store

variable {s : Store} {p : Path} {place rel : List Text}

/-! ## Files and directories -/

/-- There is a plain file at the place. -/
def HoldsFile (s : Store) (place : List Text) : Prop :=
  s.hasDir place = false ∧ (s.contentAt? place).isSome = true

/-- Where a path leads somewhere, to be a file is a matter of the place and no longer of the path.
-/
theorem isFile_iff (hplace : s.resolve p = .ok place) : s.isFile p = true ↔ s.HoldsFile place := by
  rw [isFile, hplace, HoldsFile]
  simp

theorem isDir_eq (hplace : s.resolve p = .ok place) : s.isDir p = s.hasDir place := by
  rw [isDir, hplace]

/-- There is a directory or a file at the place. -/
def Holds (s : Store) (place : List Text) : Prop :=
  s.hasDir place = true ∨ (s.contentAt? place).isSome = true

/-- A directory is where one stands, or listed as one, or on the way to one of these or to a file.
Every argument about directories goes through these three cases. -/
theorem hasDir_iff : s.hasDir place = true ↔ place <+: s.here ∨ (∃ dir ∈ s.dirs, place <+: dir)
    ∨ ∃ file ∈ s.files, place <+: file.1 ∧ place ≠ file.1 := by
  simp only [hasDir, Bool.or_eq_true, Bool.and_eq_true, List.any_eq_true,
    List.isPrefixOf_iff_prefix, bne_iff_ne, or_assoc]

/-- Where a path begins, at the root or where one stands, there is a directory. -/
theorem hasDir_start (s : Store) (p : Path) : s.hasDir (s.start p) = true := by
  rw [hasDir_iff, start]
  split
  · exact Or.inl (List.prefix_refl _)
  · exact Or.inl List.nil_prefix

/-- On the way to a directory there are directories only. -/
theorem hasDir_above {above : List Text} (habove : above <+: place)
    (h : s.hasDir place = true) : s.hasDir above = true := by
  rw [hasDir_iff] at h ⊢
  rcases h with hhere | ⟨dir, hmem, hdir⟩ | ⟨file, hmem, hfile, hne⟩
  · exact Or.inl (habove.trans hhere)
  · exact Or.inr (Or.inl ⟨dir, hmem, habove.trans hdir⟩)
  · refine Or.inr (Or.inr ⟨file, hmem, habove.trans hfile, ?_⟩)
    -- the way to the file is longer than the way to the directory, so it is not what is above
    rintro rfl
    exact hne (hfile.eq_of_length_le habove.length_le)

/-- On the way to anything there are directories only. For a file this holds because the way to it
is shorter than the file's own place. -/
theorem hasDir_of_holds_append {rest : List Text} (hrest : rest ≠ [])
    (h : s.Holds (place ++ rest)) : s.hasDir place = true := by
  rcases h with hdir | hfile
  · exact hasDir_above (List.prefix_append place rest) hdir
  · obtain ⟨bytes, hbytes⟩ := Option.isSome_iff_exists.mp hfile
    obtain ⟨file, hmem, hsame⟩ := List.lookup_isSome_iff.mp (by rw [← contentAt?, hbytes]; rfl)
    rw [beq_iff_eq] at hsame
    refine hasDir_iff.mpr (Or.inr (Or.inr ⟨file, hmem, ?_, ?_⟩))
    · rw [← hsame]
      exact List.prefix_append place rest
    · rw [← hsame]
      simpa using hrest.symm

/-! ## Where paths lead -/

/-- Where names lead there is a directory or a file. What the induction carries is that one stands
in a directory, also after a step up. -/
theorem holds_of_resolveFrom {here names : List Text} (hhere : s.hasDir here = true)
    (h : s.resolveFrom here names = .ok place) : s.Holds place := by
  induction names generalizing here with
  | nil =>
    obtain rfl := Except.ok.inj h
    exact Or.inl hhere
  | cons name rest ih =>
    rw [resolveFrom] at h
    split at h
    · exact ih (hasDir_above (List.dropLast_prefix here) hhere) h
    · dsimp only at h
      split at h
      · next hdir => exact ih hdir h
      · split at h
        · next hfile =>
          split at h
          · obtain rfl := Except.ok.inj h
            exact Or.inr hfile
          · cases h
        · cases h

theorem holds_of_resolve (hplace : s.resolve p = .ok place) : s.Holds place := by
  rw [resolve] at hplace
  split at hplace
  · cases hplace
  · exact holds_of_resolveFrom (hasDir_start s p) hplace

/-- Names without double dots are followed as they stand, as long as there is something: no place
but the one that they spell can come out. -/
theorem resolveFrom_eq_ok_iff {here names : List Text} (hhere : s.hasDir here = true)
    (hnames : ['.', '.'] ∉ names) :
    s.resolveFrom here names = .ok place ↔ place = here ++ names ∧ s.Holds place := by
  induction names generalizing here with
  | nil =>
    rw [resolveFrom, List.append_nil, Except.ok.injEq]
    constructor
    · rintro rfl
      exact ⟨rfl, Or.inl hhere⟩
    · rintro ⟨rfl, -⟩
      rfl
  | cons name rest ih =>
    rw [List.mem_cons, not_or] at hnames
    obtain ⟨hname, hrest⟩ := hnames
    have hspell : here ++ name :: rest = here ++ [name] ++ rest := by simp
    rw [resolveFrom, if_neg (Ne.symm hname), hspell]
    dsimp only
    by_cases hdir : s.hasDir (here ++ [name]) = true
    · rw [if_pos hdir, ih hdir hrest]
    · rw [if_neg hdir]
      -- what is no directory can only be what the last name leads to
      by_cases hlast : rest = []
      · subst hlast
        rw [List.append_nil]
        by_cases hfile : (s.contentAt? (here ++ [name])).isSome = true
        · simp only [hfile, if_true, List.isEmpty_nil, Except.ok.injEq]
          constructor
          · rintro rfl
            exact ⟨rfl, Or.inr hfile⟩
          · rintro ⟨rfl, -⟩
            rfl
        · simp only [hfile, Bool.false_eq_true, if_false, reduceCtorEq, false_iff, not_and]
          rintro rfl (h | h)
          · exact hdir h
          · exact hfile h
      · have hempty : rest.isEmpty = false := by simpa using hlast
        simp only [hempty, Bool.false_eq_true, if_false]
        constructor
        · intro h
          split at h <;> cases h
        · rintro ⟨rfl, hholds⟩
          exact absurd (hasDir_of_holds_append hlast hholds) hdir

/-- **Plain paths.** A path without double dots and null characters leads to the place that it
spells, from the root or from where one stands, exactly if there is a directory or a file. -/
theorem resolve_eq_ok_iff (hnull : p.hasNull = false) (hdots : ['.', '.'] ∉ p.parts) :
    s.resolve p = .ok place ↔ place = s.start p ++ p.parts ∧ s.Holds place := by
  rw [resolve, if_neg (by simp [hnull]), resolveFrom_eq_ok_iff (hasDir_start s p) hdots]

/-- One file by three ways: from where one stands, from the root, and around through above the
root. -/
example :
    let store := ({} : Store).addFile (Path.ofString "a/b.py") []
    ["a/b.py", "//work/a/b.py", "../../../work/a/../a/b.py"].map
        (fun path => (store.resolve (Path.ofString path)).toOption)
      = List.replicate 3 (some (["work", "a", "b.py"].map String.toList)) := by
  decide +kernel

/-! ## Paths that lead nowhere -/

/-- A path leads to no file and to no directory. -/
def Lacks (s : Store) (p : Path) : Prop := s.isFile p = false ∧ s.isDir p = false

/-- A path leads to a file or a directory if it leads anywhere. So to lead nowhere and to lead to
neither of the two are the same, and the question whether a path exists is one about `resolve`
alone. -/
theorem lacks_iff : s.Lacks p ↔ ∀ place, s.resolve p ≠ .ok place := by
  constructor
  · rintro ⟨hfile, hdir⟩ place hplace
    rw [isDir_eq hplace] at hdir
    rw [← Bool.not_eq_true, isFile_iff hplace] at hfile
    rcases holds_of_resolve hplace with h | h
    · rw [h] at hdir
      cases hdir
    · exact hfile ⟨hdir, h⟩
  · intro h
    cases hplace : s.resolve p with
    | ok place => exact absurd hplace (h place)
    | error e => exact ⟨by rw [isFile, hplace], by rw [isDir, hplace]⟩

/-! ## What is below a directory -/

/-- What is left behind a beginning is what must be put behind it to get the whole. -/
theorem behind?_eq_some_iff {file : List Text} :
    behind? place file = some rel ↔ file = place ++ rel := by
  fun_induction behind? place file with
  | case1 file => simp [eq_comm]
  | case2 name rest => simp
  | case3 name rest file ih => simpa using ih
  | case4 name rest other file hne => simp [Ne.symm hne]

/-- The files below a directory are listed, all of them, and nothing but files. The place of the
directory itself is not below it. -/
theorem mem_filesBelow (hplace : s.resolve p = .ok place) :
    rel ∈ s.filesBelow p ↔ rel ≠ [] ∧ s.HoldsFile (place ++ rel) := by
  rw [filesBelow, hplace, HoldsFile, contentAt?, List.lookup_isSome_iff]
  simp only [List.mem_mergeSort, List.mem_eraseDups, List.mem_filterMap, List.mem_filter,
    Option.filter_eq_some_iff, behind?_eq_some_iff, Bool.not_eq_true', List.isEmpty_eq_false_iff,
    beq_iff_eq]
  constructor
  · rintro ⟨⟨file, bytes⟩, ⟨hmem, hdir⟩, rfl, hrel⟩
    exact ⟨hrel, hdir, ⟨_, bytes⟩, hmem, rfl⟩
  · rintro ⟨hrel, hdir, ⟨file, bytes⟩, hmem, rfl⟩
    exact ⟨⟨_, bytes⟩, ⟨hmem, hdir⟩, rfl, hrel⟩

/-- The files below a directory go strictly up by their names, so that none comes twice. -/
theorem filesBelow_pairwise : (s.filesBelow p).Pairwise (· < ·) := by
  rw [filesBelow]
  split
  · exact Path.pairwise_mergeSort (nodup_eraseDups _)
  · exact List.Pairwise.nil

/-- All that is below a directory, directories too, each once and in whatever order. -/
structure Lists (s : Store) (place : List Text) (entries : List (List Text)) : Prop where
  nodup : entries.Nodup
  mem_iff : ∀ rel, rel ∈ entries
    ↔ rel ≠ [] ∧ (s.hasDir (place ++ rel) = true ∨ (s.contentAt? (place ++ rel)).isSome = true)

/-- **A walk.** The entries below a directory, sorted and without the directories. In which order
the entries come is open, as it is for a walk through a real directory, and makes no difference. -/
theorem filesBelow_eq_walk {entries : List (List Text)} (hplace : s.resolve p = .ok place)
    (h : s.Lists place entries) : s.filesBelow p
      = (entries.mergeSort fun a b => !Path.before b a).filter fun rel =>
          !s.hasDir (place ++ rel) && (s.contentAt? (place ++ rel)).isSome := by
  -- both go strictly up, so it is enough that they have the same members
  apply filesBelow_pairwise.eq_of_mem_iff ((Path.pairwise_mergeSort h.nodup).filter _)
  intro rel
  rw [mem_filesBelow hplace, List.mem_filter, List.mem_mergeSort, h.mem_iff, HoldsFile]
  grind

end Store

/-! ## Going through a list -/

section Runs

variable {α β ε : Type} {f : α → Except ε β} {xs : List α}

theorem mapM_cons_of_error {x : α} {e : ε} (hx : f x = .error e) :
    (x :: xs).mapM f = .error e := by
  rw [List.mapM_cons, hx]
  rfl

theorem mapM_cons_of_ok {x : α} {y : β} (hx : f x = .ok y) :
    (x :: xs).mapM f = (xs.mapM f).map (y :: ·) := by
  rw [List.mapM_cons, hx]
  cases xs.mapM f <;> rfl

theorem map_eq_error_iff {γ : Type} {r : Except ε α} {g : α → γ} {e : ε} :
    r.map g = .error e ↔ r = .error e := by
  cases r <;> simp [Except.map]

theorem exists_eq_ok_iff {r : Except ε α} : (∃ a, r = .ok a) ↔ ¬∃ e, r = .error e := by
  cases r <;> simp

/-- Going through a list gives what its entries give. In this form it can be read in both
directions: results come entry by entry, and entries that have results give a result. -/
theorem mapM_eq_ok_iff {ys : List β} :
    xs.mapM f = .ok ys ↔ List.Forall₂ (fun x y => f x = .ok y) xs ys := by
  induction xs generalizing ys with
  | nil => simp [pure, Except.pure, eq_comm]
  | cons x rest ih =>
    rw [List.forall₂_cons_left_iff]
    cases hx : f x with
    | error e => simp [mapM_cons_of_error hx]
    | ok y =>
      rw [mapM_cons_of_ok hx]
      simp only [Except.ok.injEq, ← ih]
      cases rest.mapM f <;> simp [Except.map, eq_comm]

/-- It stops at the first entry that gives nothing. Those before it have all given something, which
is lost. -/
theorem mapM_eq_error_iff {e : ε} : xs.mapM f = .error e
    ↔ ∃ before x behind, xs = before ++ x :: behind ∧ (∀ a ∈ before, ∃ y, f a = .ok y)
      ∧ f x = .error e := by
  constructor
  · intro h
    induction xs with
    | nil => cases h
    | cons x rest ih =>
      cases hx : f x with
      | error other =>
        rw [mapM_cons_of_error hx] at h
        exact ⟨[], x, rest, rfl, by simp, hx.trans (congrArg _ (Except.error.inj h))⟩
      | ok y =>
        rw [mapM_cons_of_ok hx, map_eq_error_iff] at h
        obtain ⟨before, a, behind, rfl, hbefore, ha⟩ := ih h
        exact ⟨x :: before, a, behind, rfl, List.forall_mem_cons.mpr ⟨⟨y, hx⟩, hbefore⟩, ha⟩
  · rintro ⟨before, x, behind, rfl, hbefore, hx⟩
    induction before with
    | nil => exact mapM_cons_of_error hx
    | cons a before ih =>
      obtain ⟨⟨y, ha⟩, hrest⟩ := List.forall_mem_cons.mp hbefore
      rw [List.cons_append, mapM_cons_of_ok ha, map_eq_error_iff]
      exact ih hrest

/-- One entry that gives nothing is enough, wherever it stands among the others. -/
theorem exists_mapM_eq_error_iff (f : α → Except ε β) (xs : List α) :
    (∃ e, xs.mapM f = .error e) ↔ ∃ x ∈ xs, ∃ e, f x = .error e := by
  induction xs with
  | nil => simp [pure, Except.pure]
  | cons x rest ih =>
    simp only [List.mem_cons, exists_eq_or_imp, ← ih]
    cases hx : f x with
    | error e => simp [mapM_cons_of_error hx]
    | ok y => simp [mapM_cons_of_ok hx, map_eq_error_iff]

end Runs

/-! ## What paths stand for -/

namespace Collect

variable {store : Store} {options : Lint.Options} {p : Path} {place dirs : List Text} {name : Text}

/-- A file below a directory is to be checked: none of the directories on the way to it is hidden,
its name is one of those to include, and neither its name nor the way to it is to be excluded. -/
structure Wanted (store : Store) (options : Lint.Options) (place dirs : List Text) (name : Text) :
    Prop where
  file : store.HoldsFile (place ++ (dirs ++ [name]))
  visible : ∀ dir ∈ dirs, dir.head? ≠ some '.'
  included : ∃ glob ∈ options.includeGlobs, globMatches glob.toList name = true
  notExcluded : ∀ glob ∈ options.excludeGlobs,
    globMatches glob.toList (Path.join (dirs ++ [name])) = false
      ∧ globMatches glob.toList name = false

/-- To be kept, spelled out for the names of the directories and the name of the file: only
directories may be hidden, names are included by themselves, and files are excluded by their way or
by their name. -/
theorem keeps_iff : keeps options (dirs ++ [name]) = true
    ↔ (∀ dir ∈ dirs, dir.head? ≠ some '.')
      ∧ (∃ glob ∈ options.includeGlobs, globMatches glob.toList name = true)
      ∧ ∀ glob ∈ options.excludeGlobs,
        globMatches glob.toList (Path.join (dirs ++ [name])) = false
          ∧ globMatches glob.toList name = false := by
  simp [keeps, hidden, Collect.included, excluded, and_assoc]

/-- The files below a directory that are kept are the wanted ones, neither more nor fewer. -/
theorem mem_filesBelow_keeps (hplace : store.resolve p = .ok place) (rel : List Text) :
    rel ∈ (store.filesBelow p).filter (keeps options)
      ↔ ∃ dirs name, rel = dirs ++ [name] ∧ Wanted store options place dirs name := by
  rw [List.mem_filter, Store.mem_filesBelow hplace]
  constructor
  · rintro ⟨⟨hrel, hfile⟩, hkeeps⟩
    obtain ⟨dirs, name, rfl⟩ := (List.eq_nil_or_concat rel).resolve_left hrel
    rw [List.concat_eq_append] at hfile hkeeps ⊢
    obtain ⟨hvisible, hincluded, hexcluded⟩ := keeps_iff.mp hkeeps
    exact ⟨dirs, name, rfl, hfile, hvisible, hincluded, hexcluded⟩
  · rintro ⟨dirs, name, rfl, h⟩
    exact ⟨⟨by simp, h.file⟩, keeps_iff.mpr ⟨h.visible, h.included, h.notExcluded⟩⟩

/-- The files that a path stands for. -/
inductive StandsFor (store : Store) (options : Lint.Options) (p : Path) : List Path → Prop
  /-- A file stands for itself, whatever its name. -/
  | file {place : List Text} (hplace : store.resolve p = .ok place)
      (hfile : store.HoldsFile place) : StandsFor store options p [p]
  /-- A directory stands for the files below it that are to be checked, in their order. -/
  | below {place : List Text} {rels : List (List Text)} (hplace : store.resolve p = .ok place)
      (hdir : store.hasDir place = true) (hsorted : rels.Pairwise (· < ·))
      (hmem : ∀ rel, rel ∈ rels
        ↔ ∃ dirs name, rel = dirs ++ [name] ∧ Wanted store options place dirs name) :
      StandsFor store options p (rels.map p.extend)

/-- A directory is taken for the files below it that are kept. No path leads to a directory and to a
file. -/
theorem expand_of_dir (hplace : store.resolve p = .ok place) (hdir : store.hasDir place = true) :
    expand store options p = .ok (((store.filesBelow p).filter (keeps options)).map p.extend) := by
  have hfile : store.isFile p = false := by
    rw [← Bool.not_eq_true, Store.isFile_iff hplace, Store.HoldsFile, hdir]
    simp
  rw [expand, hfile, Store.isDir_eq hplace, hdir]
  simp

/-- A path stands for one list of files at most, and that is what it is taken for. For a directory
this needs the order: without it there would be as many lists as there are orders. -/
theorem expand_eq_ok_iff {files : List Path} :
    expand store options p = .ok files ↔ StandsFor store options p files := by
  constructor
  · intro h
    cases hplace : store.resolve p with
    | error e => simp [expand, Store.isFile, Store.isDir, hplace] at h
    | ok place =>
      by_cases hdir : store.hasDir place = true
      · rw [expand_of_dir hplace hdir] at h
        obtain rfl := Except.ok.inj h
        exact .below hplace hdir (Store.filesBelow_pairwise.filter _) (mem_filesBelow_keeps hplace)
      · rw [expand, Store.isDir_eq hplace] at h
        split at h
        · next hfile =>
          obtain rfl := Except.ok.inj h
          exact .file hplace ((Store.isFile_iff hplace).mp hfile)
        · cases h
  · rintro (⟨hplace, hfile⟩ | ⟨hplace, hdir, hsorted, hmem⟩)
    · rw [expand, if_pos ((Store.isFile_iff hplace).mpr hfile)]
    · -- names that go strictly up are fixed by which names they are
      have hrels := (Store.filesBelow_pairwise.filter (keeps options)).eq_of_mem_iff hsorted
        fun rel => (mem_filesBelow_keeps hplace rel).trans (hmem rel).symm
      rw [expand_of_dir hplace hdir, hrels]

theorem expand_eq_error_iff {e : MissingPath} :
    expand store options p = .error e ↔ e.path = p ∧ store.Lacks p := by
  rw [expand, Store.Lacks]
  by_cases hfile : store.isFile p = true
  · simp [hfile]
  · by_cases hdir : store.isDir p = true
    · simp [hfile, hdir]
    · simp only [hfile, hdir, Bool.false_eq_true, if_false, Except.error.injEq, and_true]
      constructor
      · rintro rfl
        rfl
      · rintro rfl
        rfl

theorem exists_expand_eq_error_iff :
    (∃ e, expand store options p = .error e) ↔ store.Lacks p := by
  constructor
  · rintro ⟨e, h⟩
    exact (expand_eq_error_iff.mp h).2
  · intro h
    exact ⟨⟨p⟩, expand_eq_error_iff.mpr ⟨rfl, h⟩⟩

/-- A path stands for files exactly if it leads somewhere, be it to a directory without any. -/
theorem exists_expand_eq_ok_iff : (∃ files, expand store options p = .ok files)
    ↔ ∃ place, store.resolve p = .ok place := by
  rw [exists_eq_ok_iff, exists_expand_eq_error_iff, Store.lacks_iff]
  simp

end Collect

variable {store : Store} {options : Lint.Options} {paths : List Path}

/-- Paths are gone through one by one, and what they stand for is put together. -/
theorem collectFiles_eq (store : Store) (options : Lint.Options) (paths : List Path) :
    collectFiles store options paths
      = (paths.mapM (Collect.expand store options)).map List.flatten := by
  rw [collectFiles]
  cases paths.mapM (Collect.expand store options) <;> rfl

/-- One path that leads nowhere is enough, wherever it stands among the others. -/
theorem exists_collectFiles_eq_error_iff :
    (∃ e, collectFiles store options paths = .error e) ↔ ∃ p ∈ paths, store.Lacks p := by
  simp only [collectFiles_eq, map_eq_error_iff, exists_mapM_eq_error_iff,
    Collect.exists_expand_eq_error_iff]

theorem collectFiles_eq_error_iff {e : MissingPath} :
    collectFiles store options paths = .error e
      ↔ ∃ before behind, paths = before ++ e.path :: behind
        ∧ (∀ p ∈ before, ∃ place, store.resolve p = .ok place)
        ∧ ∀ place, store.resolve e.path ≠ .ok place := by
  rw [collectFiles_eq, map_eq_error_iff, mapM_eq_error_iff]
  simp only [Collect.exists_expand_eq_ok_iff, Collect.expand_eq_error_iff, Store.lacks_iff]
  constructor
  · rintro ⟨before, p, behind, hsplit, hbefore, rfl, hp⟩
    exact ⟨before, behind, hsplit, hbefore, hp⟩
  · rintro ⟨before, behind, hsplit, hbefore, hp⟩
    exact ⟨before, e.path, behind, hsplit, hbefore, rfl, hp⟩

/-- There are files exactly if every path leads somewhere. One missing path is enough for there to
be none at all. -/
theorem exists_collectFiles_eq_ok_iff : (∃ files, collectFiles store options paths = .ok files)
    ↔ ∀ p ∈ paths, ∃ place, store.resolve p = .ok place := by
  rw [exists_eq_ok_iff, exists_collectFiles_eq_error_iff]
  simp [Store.lacks_iff]

/-- The files are what the paths stand for, path by path. A file that two paths stand for comes
twice. -/
theorem collectFiles_eq_ok_iff {files : List Path} : collectFiles store options paths = .ok files
    ↔ ∃ parts, List.Forall₂ (Collect.StandsFor store options) paths parts
      ∧ files = parts.flatten := by
  have hparts : ∀ parts, List.Forall₂ (Collect.StandsFor store options) paths parts
      ↔ paths.mapM (Collect.expand store options) = .ok parts := by
    intro parts
    rw [mapM_eq_ok_iff]
    simp only [Collect.expand_eq_ok_iff]
  simp only [hparts, collectFiles_eq]
  cases paths.mapM (Collect.expand store options) with
  | error e => simp [Except.map]
  | ok parts => simp [Except.map, eq_comm]

/-- **Files to check.** Where a path leads nowhere, the first such path is named and there are no
files. Else there are files: what the paths stand for, path by path. A path may be absolute or
relative and may go up; what it leads to is `resolve`'s business (`Store.resolve_eq_ok_iff`). -/
theorem collectFiles_iff (store : Store) (options : Lint.Options) (paths : List Path) :
    (∀ e, collectFiles store options paths = .error e
      ↔ ∃ before behind, paths = before ++ e.path :: behind
        ∧ (∀ p ∈ before, ∃ place, store.resolve p = .ok place)
        ∧ ∀ place, store.resolve e.path ≠ .ok place)
    ∧ ((∃ files, collectFiles store options paths = .ok files)
      ↔ ∀ p ∈ paths, ∃ place, store.resolve p = .ok place)
    ∧ ∀ files, collectFiles store options paths = .ok files
      ↔ ∃ parts, List.Forall₂ (Collect.StandsFor store options) paths parts
        ∧ files = parts.flatten :=
  ⟨fun _ => collectFiles_eq_error_iff, exists_collectFiles_eq_ok_iff,
    fun _ => collectFiles_eq_ok_iff⟩

end Orthography
