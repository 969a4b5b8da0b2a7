/-
Which source files end a run.

A file that cannot be read is to cost a run one diagnostic and no more. What is caught is a file
that is not there, a declaration that makes no sense, and bytes that are no text in the encoding
that was declared. What is not caught is everything else that reading can come to
(`Store.Uncontained`): a name that no file can have, a declared transformation that has a name like
an encoding but yields no text, and an encoding that fails otherwise than over the bytes. Main
statement, `checkFile_containment`: the check of a file ends a run exactly if the file is one of
these, and else it is the check of the file's text, or one diagnostic that says why there is none.
-/
import Orthography.Lint.File

set_option autoImplicit false

namespace Orthography

/-! ## Names that no file can have -/

/-- A path that is followed name by name is not refused for its names. That has been looked at
before the first step, for the whole path. -/
theorem Store.resolveFrom_ne_badName {s : Store} {here names : List Text} :
    s.resolveFrom here names ≠ .error .badName := by
  induction names generalizing here with
  | nil => simp [resolveFrom]
  | cons name rest ih =>
    rw [resolveFrom]
    split
    · -- one step up
      exact ih
    · dsimp only
      split
      · exact ih
      · split
        · split <;> simp
        · simp

/-- Finding a place is refused for the name exactly if a null character stands in the path, whether
or not there is anything. -/
theorem Store.resolve_eq_badName_iff {s : Store} {p : Path} :
    s.resolve p = .error .badName ↔ p.hasNull = true := by
  rw [resolve]
  by_cases hnull : p.hasNull = true
  · rw [if_pos hnull]
    exact ⟨fun _ => hnull, fun _ => rfl⟩
  · rw [if_neg hnull]
    exact ⟨fun h => absurd h resolveFrom_ne_badName, fun h => absurd h hnull⟩

/-- Reading is refused for the name exactly where finding the place is. -/
theorem Store.read_eq_badName_iff {s : Store} {p : Path} :
    s.read p = .error .badName ↔ p.hasNull = true := by
  rw [← resolve_eq_badName_iff (s := s), read]
  cases hplace : s.resolve p with
  | error e => simp [Bind.bind, Except.bind]
  | ok place =>
    simp only [Bind.bind, Except.bind]
    refine ⟨fun h => ?_, fun h => by cases h⟩
    split at h
    · cases h
    · split at h <;> cases h

/-! ## Encodings that fail -/

/-- What an encoding does to bytes that ends a run. -/
inductive Encoding.Fails (bytes : Bytes) : Encoding → Escape → Prop where
  /-- It is a transformation that yields no text. -/
  | notText {name : Text} : Fails bytes (.notText name) (.notText name)
  /-- It is the one in which nothing is a text. -/
  | undefined : Fails bytes .undefined .undefined
  /-- The order of the two bytes of a unit is left open, and nothing else is wrong. -/
  | utf16 {t : Text} (htext : decodeUtf16 .little 0 bytes = .ok t) :
    Fails bytes (.utf16 none) (.unordered "UTF-16")
  /-- The same for units of four bytes. -/
  | utf32 {t : Text} (htext : decodeUtf32 .little 0 bytes = .ok t) :
    Fails bytes (.utf32 none) (.unordered "UTF-32")
  /-- An installed encoding fails, and not over the bytes. -/
  | installed {codec : Codec} {message : String} (hfault : codec bytes = .error (.failed message)) :
    Fails bytes (.installed codec) (.codec message)

/-- Text in units of several bytes ends the run exactly if their order is left open and the bytes
make a text. Bytes that make none are an error that is caught before the order matters. -/
theorem decodeUnits_eq_error_iff {encoding : String} {read : ByteOrder → Except DecodeError Text}
    {order : Option ByteOrder} {e : Escape} :
    decodeUnits encoding read order = .error e
      ↔ order = none ∧ (∃ t, read .little = .ok t) ∧ e = .unordered encoding := by
  cases order with
  | some order => simp [decodeUnits]
  | none =>
    rw [decodeUnits]
    cases read .little with
    | ok t => simp [eq_comm]
    | error e => simp

/-- Decoding ends the run exactly if the encoding fails in one of the five ways. Bytes that are no
text in it are not among these: they are told to whoever reads the file. -/
theorem Encoding.decode_eq_error_iff {encoding : Encoding} {bytes : Bytes} {e : Escape} :
    encoding.decode bytes = .error e ↔ encoding.Fails bytes e := by
  constructor
  · intro h
    unfold decode at h
    cases encoding with
    | utf8 | utf8Marked | latin1 | ascii => cases h
    | utf16 order =>
      obtain ⟨rfl, ⟨t, htext⟩, rfl⟩ := decodeUnits_eq_error_iff.mp h
      exact .utf16 htext
    | utf32 order =>
      obtain ⟨rfl, ⟨t, htext⟩, rfl⟩ := decodeUnits_eq_error_iff.mp h
      exact .utf32 htext
    | undefined =>
      cases h
      exact .undefined
    | notText name =>
      cases h
      exact .notText
    | installed codec =>
      dsimp only at h
      split at h
      · cases h
      · cases h
      · next hfault =>
        cases h
        exact .installed hfault
  · intro h
    cases h with
    | notText | undefined => rfl
    | utf16 htext => rw [decode, decodeUnits, htext]
    | utf32 htext => rw [decode, decodeUnits, htext]
    | installed hfault => simp only [decode, hfault]

/-! ## Files that end a run -/

/-- What about a file ends a run, and how it does. -/
inductive Store.Uncontained (store : Store) (p : Path) : Escape → Prop where
  /-- No file can have the name. -/
  | badName (hname : p.hasNull = true) : Uncontained store p .badName
  /-- The encoding that the file declares fails. -/
  | encoding {bytes : Bytes} {encoding : Encoding} {e : Escape} (hread : store.read p = .ok bytes)
      (hdeclared : Encoding.ofSource store.codecs bytes = .ok encoding)
      (hfails : encoding.Fails bytes e) : Uncontained store p e

/-- Reading ends the run exactly if the file is uncontained. Everything else that can go wrong, with
the place, the declaration or the bytes, becomes a message. -/
theorem readSource_eq_error_iff {store : Store} {p : Path} {e : Escape} :
    readSource store p = .error e ↔ store.Uncontained p e := by
  constructor
  · intro h
    rw [readSource] at h
    split at h
    · next hread =>
      cases h
      exact .badName (Store.read_eq_badName_iff.mp hread)
    · cases h
    · next bytes hread =>
      split at h
      · cases h
      · next encoding hdeclared =>
        cases hdecode : encoding.decode bytes with
        | ok decoded =>
          rw [hdecode] at h
          cases h
        | error e' =>
          rw [hdecode] at h
          cases h
          exact .encoding hread hdeclared (Encoding.decode_eq_error_iff.mp hdecode)
  · intro h
    rw [readSource]
    cases h with
    | badName hname => rw [Store.read_eq_badName_iff.mpr hname]
    | encoding hread hdeclared hfails =>
      simp only [hread, hdeclared, Encoding.decode_eq_error_iff.mpr hfails]
      rfl

/-! ## The check of a file -/

namespace Lint

open Spelling

/-- The one finding about a file that cannot be read. -/
def unreadableFinding (p : Path) (e : ReadError) : Diagnostic :=
  Rule.readError.finding (Rule.readError.detailed (e.message p)) 0 p.render

/-- **Containment.** The check of a file ends the run exactly if the file is uncontained. Else it is
the check of the text that the file was decoded to, or the file was not decoded, and one diagnostic
is all there is: it is found, it is reported, and nothing was asked. -/
theorem checkFile_containment (store : Store) (oracle : Oracle) (options : Options)
    (report : Option Report) (p : Path) :
    (∀ e, checkFile store oracle options report p = .error e ↔ store.Uncontained p e)
      ∧ ((∀ e, ¬ store.Uncontained p e) →
        (∃ source, readSource store p = .ok (.ok source)
          ∧ checkFile store oracle options report p
            = .ok (checkSource oracle options report source p.render))
        ∨ ∃ e outcome, readSource store p = .ok (.error e)
          ∧ checkFile store oracle options report p = .ok outcome
          ∧ (unreadableFinding p e).code = "IO_READ_ERROR"
          ∧ outcome.diagnostics = [unreadableFinding p e]
          ∧ outcome.report = report.map (·.emit (unreadableFinding p e))
          ∧ outcome.parsed = none ∧ outcome.queries = []) := by
  refine ⟨fun e => ?_, fun hcontained => ?_⟩
  · rw [← readSource_eq_error_iff, checkFile]
    -- a check adds no way to fail to those of reading
    cases readSource store p with
    | error e' => simp [Except.map]
    | ok reading => simp [Except.map]
  · rw [checkFile]
    cases hreading : readSource store p with
    | error e => exact absurd (readSource_eq_error_iff.mp hreading) (hcontained e)
    | ok reading =>
      cases reading with
      | ok source => exact Or.inl ⟨source, rfl, rfl⟩
      | error e => exact Or.inr ⟨e, unreadable report p e, rfl, rfl, rfl, rfl, rfl, rfl, rfl⟩

/-- Bytes that no encoding starts with, in a file that declares nothing: one finding, and no
question to the oracle. -/
theorem checkFile_containment_undecodable :
    let p : Path := ⟨[], ["a.py".toList]⟩
    let store : Store := ({} : Store).addFile p [0xFF]
    let oracle : Oracle := ⟨fun t _ => some ⟨0, t.length, Nat.zero_le _⟩, fun _ _ => none⟩
    (∀ e, ¬ store.Uncontained p e)
      ∧ ∃ outcome, checkFile store oracle {} (some {}) p = .ok outcome
        ∧ outcome.diagnostics = [unreadableFinding p (.declaration .invalid)]
        ∧ outcome.queries = [] := by
  intro p store oracle
  have hreading : readSource store p = .ok (.error (.declaration .invalid)) := by
    have hshort : (match readSource store p with
        | .ok (.error (.declaration .invalid)) => true
        | _ => false) = true := by decide +kernel
    split at hshort
    · assumption
    · cases hshort
  have hcontained : ∀ e, ¬ store.Uncontained p e := by
    intro e h
    rw [← readSource_eq_error_iff, hreading] at h
    cases h
  refine ⟨hcontained, ?_⟩
  rcases (checkFile_containment store oracle {} (some {}) p).2 hcontained with
    ⟨source, hsource, -⟩ | ⟨e, outcome, herror, hcheck, -, hfound, -, -, hqueries⟩
  · rw [hreading] at hsource
    cases hsource
  · rw [hreading] at herror
    cases herror
    exact ⟨outcome, hcheck, hfound, hqueries⟩

/-- A declaration that names a transformation between texts ends the run. -/
theorem checkFile_of_rot13 :
    let p : Path := ⟨[], ["a.py".toList]⟩
    let store : Store :=
      ({} : Store).addFile p ("# coding: rot13\n".toList.map fun c => c.toNat.toUInt8)
    checkFile store ⟨fun _ _ => none, fun _ _ => none⟩ {} (some {}) p
      = .error (.notText "rot13".toList) := by
  intro p store
  have hreading : (match readSource store p with
      | .error (.notText name) => some name
      | _ => none) = some "rot13".toList := by decide +kernel
  rw [checkFile]
  split at hreading
  · next hescape =>
    cases hreading
    rw [hescape]
    rfl
  · cases hreading

end Lint

end Orthography
