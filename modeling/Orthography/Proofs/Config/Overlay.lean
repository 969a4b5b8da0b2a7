/-
Settings laid over options.

Options are a value for each setting (`Setting.value`), and nothing else (`Setting.ext_value`).
Laying one setting over options puts its value in the place of the old one, if the value is of the
type of the setting (`exists_assign`), and is refused otherwise (`assign_of_not_accepts`). So
settings that all fit are laid over options value by value: what a setting is given last counts, and
what is not named stays (`exists_overlay`). The first setting that does not fit is the one that is
refused (`overlay_eq_error_iff`).

A table names a key once, so its order does not matter, and two tables laid over options one after
the other are the second put into the first. Main statement: `overlay_table`.
-/
import Mathlib.Data.List.Nodup
import Orthography.Config.Settings

set_option autoImplicit false

namespace Orthography

/-! ## Tables -/

namespace Toml.Table

/-- The keys of a table, each of them named once. -/
def Keyed (t : Table) : Prop := (t.map Prod.fst).Nodup

/-- The table with all values of another one put in. -/
def update (t more : Table) : Table := more.foldl (fun t entry => set t entry.1 entry.2) t

theorem get?_cons (entry : Text × Value) (rest : Table) (key : Text) :
    get? (entry :: rest) key = if key = entry.1 then some entry.2 else get? rest key := by
  by_cases h : key = entry.1
  · rw [if_pos h, get?, h, List.lookup_cons_self]
  · rw [if_neg h, get?, List.lookup_cons, beq_eq_false_iff_ne.mpr h]
    rfl

theorem get?_append (t more : Table) (key : Text) :
    get? (t ++ more) key = (get? t key).or (get? more key) := List.lookup_append

/-- What a key stands for is an entry. The other direction needs that keys are named once
(`Keyed.get?_iff`). -/
theorem mem_of_get? {t : Table} {key : Text} {value : Value} (h : get? t key = some value) :
    (key, value) ∈ t := by
  obtain ⟨before, behind, rfl, -⟩ := List.lookup_eq_some_iff.mp h
  exact List.mem_append_right _ List.mem_cons_self

/-- A key that is named once stands for its value. -/
theorem Keyed.get?_iff {t : Table} (h : Keyed t) {key : Text} {value : Value} :
    get? t key = some value ↔ (key, value) ∈ t := by
  refine ⟨mem_of_get?, fun hmem => ?_⟩
  obtain ⟨before, behind, rfl⟩ := List.append_of_mem hmem
  refine List.lookup_eq_some_iff.mpr ⟨before, behind, rfl, fun p hp => ?_⟩
  rw [Keyed, List.map_append, List.nodup_append] at h
  simpa using (h.2.2 p.1 (List.mem_map_of_mem hp) key (by simp)).symm

theorem Keyed.perm {t t' : Table} (h : Keyed t) (hperm : t'.Perm t) : Keyed t' :=
  (hperm.map Prod.fst).nodup_iff.mpr h

/-- What a key stands for does not hang on the order, if no key is named twice. -/
theorem Keyed.get?_perm {t t' : Table} (h : Keyed t) (hperm : t'.Perm t) (key : Text) :
    get? t' key = get? t key := by
  apply Option.ext
  intro value
  rw [h.get?_iff, (h.perm hperm).get?_iff, hperm.mem_iff]

/-- What is put in stands for its key, and all other keys stand for what they stood for. The
induction follows `set`, which looks for the key from the beginning. -/
theorem get?_set (t : Table) (key : Text) (value : Value) (other : Text) :
    get? (set t key value) other = if other = key then some value else get? t other := by
  induction t with
  | nil => rw [set, get?_cons]
  | cons entry rest ih =>
    rw [set]
    by_cases hfirst : entry.1 = key
    · rw [if_pos hfirst, get?_cons, get?_cons, hfirst]
      by_cases h : other = key
      · rw [if_pos h, if_pos h]
      · rw [if_neg h, if_neg h, if_neg h]
    · rw [if_neg hfirst, get?_cons, get?_cons, ih]
      by_cases h : other = entry.1
      · rw [if_pos h, if_neg (h ▸ hfirst), if_pos h]
      · rw [if_neg h, if_neg h]

/-- In a table that is put into another one the last value of a key counts. -/
theorem get?_update (t more : Table) (key : Text) :
    get? (update t more) key = (get? more.reverse key).or (get? t key) := by
  induction more generalizing t with
  | nil => rfl
  | cons entry rest ih =>
    rw [update, List.foldl_cons, ← update, ih, List.reverse_cons, get?_append, Option.or_assoc,
      get?_set, get?_cons]
    by_cases h : key = entry.1
    · rw [if_pos h, if_pos h, Option.some_or]
    · rw [if_neg h, if_neg h]
      rfl

theorem mem_set {t : Table} {key : Text} {value : Value} {entry : Text × Value}
    (h : entry ∈ set t key value) : entry = (key, value) ∨ entry ∈ t := by
  induction t with
  | nil => exact Or.inl (List.mem_singleton.mp h)
  | cons first rest ih =>
    rw [set] at h
    split at h
    · next heq =>
      rcases List.mem_cons.mp h with rfl | h
      · exact Or.inl (by rw [heq])
      · exact Or.inr (List.mem_cons_of_mem _ h)
    · rcases List.mem_cons.mp h with rfl | h
      · exact Or.inr List.mem_cons_self
      · exact (ih h).imp_right (List.mem_cons_of_mem _)

/-- What is in a table after an update was in it or in the table that was put in. -/
theorem mem_update {t more : Table} {entry : Text × Value} (h : entry ∈ update t more) :
    entry ∈ t ∨ entry ∈ more := by
  induction more generalizing t with
  | nil => exact Or.inl h
  | cons first rest ih =>
    rcases ih h with h | h
    · rcases mem_set h with rfl | h
      · exact Or.inr List.mem_cons_self
      · exact Or.inl h
    · exact Or.inr (List.mem_cons_of_mem _ h)

/-- A value that is put in takes the place of the old one, so its key is still named once. -/
theorem Keyed.set {t : Table} (h : Keyed t) (key : Text) (value : Value) :
    Keyed (set t key value) := by
  induction t with
  | nil => exact List.nodup_singleton key
  | cons entry rest ih =>
    obtain ⟨hnew, hrest⟩ := List.nodup_cons.mp h
    rw [Table.set]
    split
    · next heq => exact List.nodup_cons.mpr ⟨hnew, hrest⟩
    · next hne =>
      refine List.nodup_cons.mpr ⟨fun hmem => ?_, ih hrest⟩
      obtain ⟨other, hother, heq⟩ := List.mem_map.mp hmem
      rcases mem_set hother with rfl | hother
      · exact hne heq.symm
      · exact hnew (heq ▸ List.mem_map_of_mem hother)

theorem Keyed.update {t : Table} (h : Keyed t) (more : Table) : Keyed (update t more) := by
  induction more generalizing t with
  | nil => exact h
  | cons entry rest ih => exact ih (h.set entry.1 entry.2)

end Toml.Table

namespace Config

open Toml

/-! ## Options as values -/

/-- Texts as a value. -/
def ofTexts (ws : List String) : Value := .array (ws.map fun w => .text w.toList)

namespace Setting

/-- Is the value of the type of the setting? A truth value is no number, and a list is one of
texts. -/
def Accepts (s : Setting) (v : Value) : Prop :=
  match s with
  | .suppressionMarker | .language => ∃ t, v = .text t
  | .minWordLength => ∃ n, v = .integer n
  | .checkComments | .checkTokens => ∃ b, v = .boolean b
  | .knownWords | .includeGlobs | .excludeGlobs => ∃ ts : List Text, v = .array (ts.map .text)

/-- What the options have for a setting. -/
def value (s : Setting) (o : Lint.Options) : Value :=
  match s with
  | .suppressionMarker => .text o.suppressionMarker.toList
  | .language => .text o.language.toList
  | .knownWords => ofTexts o.knownWords
  | .minWordLength => .integer o.minWordLength
  | .checkComments => .boolean o.checkComments
  | .checkTokens => .boolean o.checkTokens
  | .includeGlobs => ofTexts o.includeGlobs
  | .excludeGlobs => ofTexts o.excludeGlobs

theorem ofTexts_inj {ws ws' : List String} (h : ofTexts ws = ofTexts ws') : ws = ws' := by
  have hmap := Value.array.inj h
  refine (List.map_inj_right fun w w' hw => ?_).mp hmap
  exact String.toList_inj.mp (Value.text.inj hw)

/-- Options are what they have for the settings. So two ways to options can be compared setting by
setting, and no field is left that a setting does not reach. -/
theorem ext_value {o o' : Lint.Options} (h : ∀ s : Setting, s.value o = s.value o') : o = o' := by
  have hmarker := String.toList_inj.mp (Value.text.inj (h .suppressionMarker))
  have hlanguage := String.toList_inj.mp (Value.text.inj (h .language))
  have hwords := ofTexts_inj (h .knownWords)
  have hlength := Value.integer.inj (h .minWordLength)
  have hcomments := Value.boolean.inj (h .checkComments)
  have htokens := Value.boolean.inj (h .checkTokens)
  have hincluded := ofTexts_inj (h .includeGlobs)
  have hexcluded := ofTexts_inj (h .excludeGlobs)
  cases o
  cases o'
  simp_all

/-! ## One setting -/

theorem textsOf?_map (ts : List Text) :
    textsOf? (ts.map .text) = some (ts.map String.ofList) := by
  induction ts with
  | nil => rfl
  | cons t rest ih =>
    rw [textsOf?] at ih ⊢
    rw [List.map_cons, List.mapM_cons, ih]
    rfl

/-- And only lists of texts are read at all: one entry of another type spoils the whole list. -/
theorem eq_map_of_textsOf? {items : List Value} {ws : List String} (h : textsOf? items = some ws) :
    ∃ ts : List Text, items = ts.map .text := by
  induction items generalizing ws with
  | nil => exact ⟨[], rfl⟩
  | cons item rest ih =>
    rw [textsOf?, List.mapM_cons] at h
    obtain ⟨w, hw, h⟩ := Option.bind_eq_some_iff.mp h
    obtain ⟨more, hmore, -⟩ := Option.bind_eq_some_iff.mp h
    obtain ⟨ts, rfl⟩ := ih hmore
    split at hw
    · next t => exact ⟨t :: ts, rfl⟩
    · cases hw

/-- Why a value that does not fit is refused: it is of another type, or it is a list, but not of
texts. -/
def refusal (s : Setting) (v : Value) : SettingError :=
  if v.typeName = s.typeName then .notTexts s.key.toList
  else .wrongType s.key.toList s.typeName v.typeName

/-- A value of the right type takes the place of the old one, and every other setting keeps what it
has. -/
theorem exists_assign {s : Setting} {v : Value} (h : s.Accepts v) (o : Lint.Options) :
    ∃ o', s.assign v o = .ok o' ∧ ∀ s', s'.value o' = if s' = s then v else s'.value o := by
  cases s with
  | suppressionMarker | language | minWordLength | checkComments | checkTokens =>
    obtain ⟨x, rfl⟩ := h
    refine ⟨_, rfl, fun s' => ?_⟩
    cases s' <;> simp [value]
  | knownWords | includeGlobs | excludeGlobs =>
    obtain ⟨ts, rfl⟩ := h
    simp only [assign, textsOf?_map]
    refine ⟨_, rfl, fun s' => ?_⟩
    cases s' <;> simp [value, ofTexts]

/-- A list that is not one of texts is not read, which is how `assign` comes to refuse it. -/
theorem textsOf?_eq_none {items : List Value}
    (h : ¬ ∃ ts : List Text, Value.array items = .array (ts.map .text)) :
    textsOf? items = none := by
  cases hitems : textsOf? items with
  | none => rfl
  | some ws =>
    obtain ⟨ts, rfl⟩ := eq_map_of_textsOf? hitems
    exact absurd ⟨ts, rfl⟩ h

/-- A value that does not fit is refused, and the options are left alone. There are four kinds of
settings: for a text, a number and a truth value the other type is what is wrong, and a setting for
a list may also be given a list of something else. -/
theorem assign_of_not_accepts {s : Setting} {v : Value} (h : ¬ s.Accepts v) (o : Lint.Options) :
    s.assign v o = .error (s.refusal v) := by
  cases s with
  | suppressionMarker | language =>
    cases v with
    | text t => exact absurd ⟨t, rfl⟩ h
    | _ => rfl
  | minWordLength =>
    cases v with
    | integer n => exact absurd ⟨n, rfl⟩ h
    | _ => rfl
  | checkComments | checkTokens =>
    cases v with
    | boolean b => exact absurd ⟨b, rfl⟩ h
    | _ => rfl
  | knownWords | includeGlobs | excludeGlobs =>
    cases v with
    | array items =>
      rw [assign, textsOf?_eq_none h]
      rfl
    | _ => rfl

/-- A key belongs to one setting. -/
theorem ofKey?_eq_some_iff {name : Text} {s : Setting} :
    ofKey? name = some s ↔ s.key.toList = name := by
  constructor
  · intro h
    rw [ofKey?] at h
    simpa using List.find?_some h
  · rintro rfl
    cases s <;> decide +kernel

end Setting

/-! ## One entry -/

/-- Does an entry name a setting, with a value of its type? -/
def Fits (entry : Text × Value) : Prop := ∃ s : Setting, s.key.toList = entry.1 ∧ s.Accepts entry.2

/-- Why an entry that does not fit is refused. -/
def refusalOf (entry : Text × Value) : SettingError :=
  match Setting.ofKey? entry.1 with
  | some s => s.refusal entry.2
  | none => .unknownKey entry.1

theorem exists_overlayOne {entry : Text × Value} (h : Fits entry) (o : Lint.Options) :
    ∃ o', overlayOne o entry = .ok o'
      ∧ ∀ s : Setting, s.value o' = if s.key.toList = entry.1 then entry.2 else s.value o := by
  obtain ⟨s, hkey, haccepts⟩ := h
  obtain ⟨o', hassign, hvalue⟩ := Setting.exists_assign haccepts o
  refine ⟨o', ?_, fun s' => ?_⟩
  · rw [overlayOne, Setting.ofKey?_eq_some_iff.mpr hkey]
    exact hassign
  · have hsame : s'.key.toList = entry.1 ↔ s' = s := by
      rw [← Setting.ofKey?_eq_some_iff, Setting.ofKey?_eq_some_iff.mpr hkey, Option.some_inj,
        eq_comm]
    rw [hvalue, if_congr hsame rfl rfl]

/-- An entry that does not fit is refused, for its key if that is unknown, else for its value. -/
theorem overlayOne_of_not_fits {entry : Text × Value} (h : ¬ Fits entry) (o : Lint.Options) :
    overlayOne o entry = .error (refusalOf entry) := by
  rw [overlayOne, refusalOf]
  cases hkey : Setting.ofKey? entry.1 with
  | none => rfl
  | some s =>
    apply Setting.assign_of_not_accepts
    exact fun haccepts => h ⟨s, Setting.ofKey?_eq_some_iff.mp hkey, haccepts⟩

/-! ## All entries -/

/-- Entries that stand behind others are laid over what these have made of the options. -/
theorem overlay_append {o o' : Lint.Options} {t : Table} (h : overlay o t = .ok o') (more : Table) :
    overlay o (t ++ more) = overlay o' more := by
  rw [overlay] at h ⊢
  rw [List.foldlM_append, h]
  rfl

/-- Entries that fit are laid over options; of several values for a setting the last one counts.
That is why the table is searched from its end here, while `Table.get?` searches from the beginning.
-/
theorem exists_overlay {t : Table} (h : ∀ entry ∈ t, Fits entry) (o : Lint.Options) :
    ∃ o', overlay o t = .ok o'
      ∧ ∀ s : Setting, s.value o' = (Table.get? t.reverse s.key.toList).getD (s.value o) := by
  induction t generalizing o with
  | nil => exact ⟨o, rfl, fun s => rfl⟩
  | cons entry rest ih =>
    obtain ⟨o', hone, hfirst⟩ := exists_overlayOne (h entry List.mem_cons_self) o
    obtain ⟨o'', hoverlay, hvalue⟩ := ih (fun e he => h e (List.mem_cons_of_mem _ he)) o'
    refine ⟨o'', ?_, fun s => ?_⟩
    · rw [overlay, List.foldlM_cons, hone]
      exact hoverlay
    · rw [hvalue, hfirst, List.reverse_cons, Table.get?_append, Option.getD_or, Table.get?_cons]
      by_cases hkey : s.key.toList = entry.1
      · rw [if_pos hkey, if_pos hkey, Option.getD_some]
      · rw [if_neg hkey, if_neg hkey]
        rfl

/-- The first entry that does not fit is refused, whatever follows it. -/
theorem overlay_of_not_fits {before behind : Table} {entry : Text × Value}
    (hbefore : ∀ e ∈ before, Fits e) (hentry : ¬ Fits entry) (o : Lint.Options) :
    overlay o (before ++ entry :: behind) = .error (refusalOf entry) := by
  obtain ⟨o', hoverlay, -⟩ := exists_overlay hbefore o
  rw [overlay_append hoverlay, overlay, List.foldlM_cons, overlayOne_of_not_fits hentry]
  rfl

/-- Either all entries fit, or there is a first one that does not. The entries before it do, and
they have been laid over the options by the time it is refused. -/
theorem fits_or_exists_first (t : Table) :
    (∀ entry ∈ t, Fits entry) ∨ ∃ before entry behind, t = before ++ entry :: behind
      ∧ (∀ e ∈ before, Fits e) ∧ ¬ Fits entry := by
  induction t with
  | nil => exact Or.inl fun _ he => absurd he List.not_mem_nil
  | cons first rest ih =>
    by_cases hfirst : Fits first
    · rcases ih with hall | ⟨before, entry, behind, rfl, hbefore, hentry⟩
      · exact Or.inl (List.forall_mem_cons.mpr ⟨hfirst, hall⟩)
      · exact Or.inr ⟨first :: before, entry, behind, rfl,
          List.forall_mem_cons.mpr ⟨hfirst, hbefore⟩, hentry⟩
    · exact Or.inr ⟨[], first, rest, rfl, fun _ he => absurd he List.not_mem_nil, hfirst⟩

theorem fits_of_overlay {o o' : Lint.Options} {t : Table} (h : overlay o t = .ok o') :
    ∀ entry ∈ t, Fits entry := by
  rcases fits_or_exists_first t with hall | ⟨before, entry, behind, rfl, hbefore, hentry⟩
  · exact hall
  · rw [overlay_of_not_fits hbefore hentry] at h
    cases h

/-- Settings are refused for the first entry that does not fit. So an error tells which entry that
is, and that those before it are in order. -/
theorem overlay_eq_error_iff {o : Lint.Options} {t : Table} {e : SettingError} :
    overlay o t = .error e
      ↔ ∃ before entry behind, t = before ++ entry :: behind ∧ (∀ d ∈ before, Fits d)
        ∧ ¬ Fits entry ∧ e = refusalOf entry := by
  constructor
  · intro h
    rcases fits_or_exists_first t with hall | ⟨before, entry, behind, rfl, hbefore, hentry⟩
    · obtain ⟨o', hoverlay, -⟩ := exists_overlay hall o
      rw [hoverlay] at h
      cases h
    · rw [overlay_of_not_fits hbefore hentry] at h
      cases h
      exact ⟨before, entry, behind, rfl, hbefore, hentry, rfl⟩
  · rintro ⟨before, entry, behind, rfl, hbefore, hentry, rfl⟩
    exact overlay_of_not_fits hbefore hentry o

/-- What a table makes of options: its entries fit, and each setting has the value of the table, or
the old one where the table has none. -/
theorem overlay_eq_ok_iff {o o' : Lint.Options} {t : Table} (ht : t.Keyed) :
    overlay o t = .ok o'
      ↔ (∀ entry ∈ t, Fits entry)
        ∧ ∀ s : Setting, s.value o' = (Table.get? t s.key.toList).getD (s.value o) := by
  have hlast (key : Text) : Table.get? t.reverse key = Table.get? t key :=
    ht.get?_perm (List.reverse_perm t) key
  constructor
  · intro h
    have hall := fits_of_overlay h
    obtain ⟨o'', hoverlay, hvalue⟩ := exists_overlay hall o
    rw [hoverlay] at h
    cases h
    exact ⟨hall, fun s => by rw [hvalue, hlast]⟩
  · rintro ⟨hall, hvalue⟩
    obtain ⟨o'', hoverlay, hvalue'⟩ := exists_overlay hall o
    have heq : o'' = o' := Setting.ext_value fun s => by rw [hvalue', hlast, hvalue]
    rw [hoverlay, heq]

/-- The order of a table does not matter, as long as it is not refused. -/
theorem overlay_perm {o o' : Lint.Options} {t t' : Table} (ht : t.Keyed) (hperm : t'.Perm t)
    (h : overlay o t = .ok o') : overlay o t' = .ok o' := by
  rw [overlay_eq_ok_iff ht] at h
  rw [overlay_eq_ok_iff (ht.perm hperm)]
  exact ⟨fun entry he => h.1 entry (hperm.mem_iff.mp he),
    fun s => by rw [ht.get?_perm hperm, h.2]⟩

/-- Two tables one over the other are the second one put into the first. -/
theorem overlay_update {o o' o'' : Lint.Options} {t more : Table} (ht : t.Keyed)
    (h : overlay o t = .ok o') (hmore : overlay o more = .ok o'') :
    ∃ both, overlay o' more = .ok both ∧ overlay o (t.update more) = .ok both := by
  have hfits := fits_of_overlay hmore
  obtain ⟨both, hover, hvalue⟩ := exists_overlay hfits o'
  refine ⟨both, hover, (overlay_eq_ok_iff (ht.update more)).mpr ⟨fun entry he => ?_, fun s => ?_⟩⟩
  · rcases Table.mem_update he with he | he
    · exact fits_of_overlay h entry he
    · exact hfits entry he
  · rw [hvalue, ((overlay_eq_ok_iff ht).mp h).2 s, Table.get?_update, Option.getD_or]

/-- **Settings.** A table is laid over options exactly if each of its keys is a setting's and each
value of the setting's type; then the settings that are named have the values of the table and the
others those of the options, in whatever order the table has them. Else the first entry that does
not fit is refused. And tables laid over options one after the other come to the same as the first
with the second put in. -/
theorem overlay_table {t : Table} (ht : t.Keyed) (o : Lint.Options) :
    ((∃ o', overlay o t = .ok o') ↔ ∀ entry ∈ t, Fits entry)
      ∧ (∀ o', overlay o t = .ok o' ↔ (∀ entry ∈ t, Fits entry)
        ∧ ∀ s : Setting, s.value o' = (Table.get? t s.key.toList).getD (s.value o))
      ∧ (∀ t' o', t'.Perm t → overlay o t = .ok o' → overlay o t' = .ok o')
      ∧ (∀ e, overlay o t = .error e ↔ ∃ before entry behind, t = before ++ entry :: behind
        ∧ (∀ d ∈ before, Fits d) ∧ ¬ Fits entry ∧ e = refusalOf entry)
      ∧ ∀ more o' o'', overlay o t = .ok o' → overlay o more = .ok o'' →
        ∃ both, overlay o' more = .ok both ∧ overlay o (t.update more) = .ok both := by
  refine ⟨⟨fun ⟨_, h⟩ => fits_of_overlay h, fun h => ?_⟩, fun _ => overlay_eq_ok_iff ht,
    fun _ _ hperm h => overlay_perm ht hperm h, fun _ => overlay_eq_error_iff,
    fun _ _ _ h hmore => overlay_update ht h hmore⟩
  obtain ⟨o', hoverlay, -⟩ := exists_overlay h o
  exact ⟨o', hoverlay⟩

/-- Two tables that both name the language, and a truth value where a number should be. -/
theorem overlay_table_language :
    let t : Table :=
      [("language".toList, .text "de".toList), ("min-word-length".toList, .integer 3)]
    let more : Table :=
      [("include".toList, .array [.text "*.pyi".toList]), ("language".toList, .text "fr".toList)]
    let bad : Table := [("language".toList, .text []), ("min-word-length".toList, .boolean true)]
    t.Keyed ∧ bad.Keyed
      ∧ (∃ both, overlay { language := "de", minWordLength := 3 } more = .ok both
        ∧ overlay {} (t.update more) = .ok both)
      ∧ overlay {} bad = .error (.wrongType "min-word-length".toList "int" "bool") := by
  intro t more bad
  have ht : t.Keyed := by unfold Table.Keyed; decide
  have hbad : bad.Keyed := by unfold Table.Keyed; decide
  refine ⟨ht, hbad, (overlay_table ht {}).2.2.2.2 more _ _ rfl rfl, ?_⟩
  refine ((overlay_table hbad {}).2.2.2.1 _).mpr ⟨[bad[0]], bad[1], [], rfl, ?_, ?_, rfl⟩
  · exact List.forall_mem_singleton.mpr ⟨.language, rfl, [], rfl⟩
  · rintro ⟨s, hkey, haccepts⟩
    obtain rfl : Setting.minWordLength = s :=
      Option.some.inj (Setting.ofKey?_eq_some_iff.mpr hkey ▸ rfl)
    obtain ⟨n, hn⟩ := haccepts
    cases hn

end Config

end Orthography
