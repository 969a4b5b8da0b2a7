/-
Putting a tree together from the notes of the builder.

The builder notes for each token which token owns it, and `Builder.topLevel` turns the notes into
tokens, from the last one back. This file says what comes out, for notes taken in any way: every
token is there once (`forest_perm`), and the tokens stand in the order in which they were fed
exactly when each of them is owned by a token on the *spine*, the path from the newest token up to
the top level (`flatMap_listing_of_inTurn`, `inTurn_of_offsets`).

All of it is one recursion over the notes in the order of feeding, `forest_cons`: the oldest token
takes the tokens that wait for it and joins those that wait for its owner.
-/
import Mathlib.Data.List.Basic
import Mathlib.Data.List.Nodup
import Orthography.Tree.Builder

set_option autoImplicit false

namespace Orthography

/-! ## Rows -/

namespace Builder

/-- What waits for an owner once one more token waits. -/
theorem Rows.get_put (rows : Rows) (owner : Option Nat) (t : Token) (other : Option Nat) :
    (Rows.put rows owner t).get other
      = if owner = other then t :: rows.get other else rows.get other := by
  induction rows with
  | nil => simp [Rows.put, Rows.get]
  | cons row rest ih =>
    obtain ⟨key, tokens⟩ := row
    by_cases hkey : key = owner
    · subst hkey
      by_cases hother : key = other <;> simp [Rows.put, Rows.get, hother]
    · simp only [Rows.put, if_neg hkey, Rows.get, ih]
      by_cases hother : key = other
      · subst hother
        simp [Ne.symm hkey]
      · simp [hother]

/-- What waits for an owner once nothing waits for another one. -/
theorem Rows.get_drop (rows : Rows) (owner other : Option Nat) :
    (Rows.drop rows owner).get other = if owner = other then [] else rows.get other := by
  induction rows with
  | nil => simp [Rows.drop, Rows.get]
  | cons row rest ih =>
    obtain ⟨key, tokens⟩ := row
    by_cases hkey : key = owner
    · subst hkey
      rw [Rows.drop, if_pos rfl, ih, Rows.get]
      by_cases hother : key = other
      · rw [if_pos hother, if_pos hother]
      · rw [if_neg hother, if_neg hother, if_neg hother]
    · simp only [Rows.drop, if_neg hkey, Rows.get, ih]
      by_cases hother : key = other
      · subst hother
        simp [Ne.symm hkey]
      · simp [hother]

/-! ## The recursion

`forest b fed owner` is what waits for `owner` when the entries `fed`, the oldest first, have been
put together. -/

/-- The tokens that wait for an owner once the entries `fed` are put together. -/
def forest (b : Builder) (fed : List Entry) (owner : Option Nat) : List Token :=
  Rows.get (fed.foldr (fun e rows => b.assembleStep rows e) []) owner

/-- An entry as a token without children. -/
def bare (b : Builder) (e : Entry) : Token := b.assembleEntry [] e

/-- An entry with the children it takes from the entries behind it. -/
def node (b : Builder) (rest : List Entry) (e : Entry) : Token :=
  { b.bare e with children := b.forest rest (some e.id) }

/-- The oldest entry takes what waits for it and comes before all that wait for its owner. -/
theorem forest_cons (b : Builder) (e : Entry) (rest : List Entry) (owner : Option Nat) :
    b.forest (e :: rest) owner
      = (if e.owner = owner then [b.node rest e] else [])
        ++ if some e.id = owner then [] else b.forest rest owner := by
  have hnode : b.assembleEntry (rest.foldr (fun e rows => b.assembleStep rows e) []) e
      = b.node rest e := rfl
  rw [forest, List.foldr_cons, assembleStep, Rows.get_put, Rows.get_drop, hnode]
  by_cases howner : e.owner = owner <;> simp [howner, forest]

/-- The builder's tree is the forest of its entries, taken from the oldest to the newest. The
builder itself keeps them the other way round and puts the tree together from its end. -/
theorem topLevel_eq_forest (b : Builder) : b.topLevel = b.forest b.entries.reverse none := by
  rw [topLevel, forest, List.foldr_reverse]

end Builder

/-! ## Tokens without their children -/

namespace Token

/-- The token without its children. -/
def shallow (t : Token) : Token := { t with children := [] }

end Token

namespace Builder

@[simp] theorem shallow_node (b : Builder) (rest : List Entry) (e : Entry) :
    (b.node rest e).shallow = b.bare e := rfl

/-- The tokens below and in a forest, in document order, each without its children. -/
def listing (b : Builder) (fed : List Entry) (owner : Option Nat) : List Token :=
  (Token.descendantsAll (b.forest fed owner)).map Token.shallow

@[simp] theorem listing_nil (b : Builder) (owner : Option Nat) : b.listing [] owner = [] := rfl

/-- The recursion of `forest_cons`, in document order. -/
theorem listing_cons (b : Builder) (e : Entry) (rest : List Entry) (owner : Option Nat) :
    b.listing (e :: rest) owner
      = (if e.owner = owner then b.bare e :: b.listing rest (some e.id) else [])
        ++ if some e.id = owner then [] else b.listing rest owner := by
  have hnode : (b.node rest e).children = b.forest rest (some e.id) := rfl
  rw [listing, forest_cons, Token.descendantsAll_append, List.map_append]
  congr 1
  · split
    · simp [Token.descendantsAll, Token.descendants_eq, hnode, listing]
    · rfl
  · split <;> rfl

theorem forest_cons_of_ne (b : Builder) {e : Entry} {owner : Option Nat} (rest : List Entry)
    (howner : e.owner ≠ owner) (hid : some e.id ≠ owner) :
    b.forest (e :: rest) owner = b.forest rest owner := by
  rw [forest_cons, if_neg howner, if_neg hid, List.nil_append]

theorem listing_cons_of_ne (b : Builder) {e : Entry} {owner : Option Nat} (rest : List Entry)
    (howner : e.owner ≠ owner) (hid : some e.id ≠ owner) :
    b.listing (e :: rest) owner = b.listing rest owner := by
  rw [listing, b.forest_cons_of_ne rest howner hid, listing]

/-- The first entry of an owner comes first, then what it has, then what else the owner has. -/
theorem listing_cons_owner (b : Builder) {e : Entry} (rest : List Entry)
    (hid : some e.id ≠ e.owner) :
    b.listing (e :: rest) e.owner
      = b.bare e :: (b.listing rest (some e.id) ++ b.listing rest e.owner) := by
  rw [listing_cons, if_pos rfl, if_neg hid, List.cons_append]

/-- Every token that waits was fed. -/
theorem mem_of_mem_listing (b : Builder) {fed : List Entry} {owner : Option Nat} {t : Token}
    (h : t ∈ b.listing fed owner) : ∃ e ∈ fed, t = b.bare e := by
  induction fed generalizing owner with
  | nil => simp at h
  | cons e rest ih =>
    rw [listing_cons, List.mem_append] at h
    rcases h with h | h
    · split at h
      · rcases List.mem_cons.mp h with rfl | h
        · exact ⟨e, List.mem_cons_self, rfl⟩
        · obtain ⟨d, hd, rfl⟩ := ih h
          exact ⟨d, List.mem_cons_of_mem _ hd, rfl⟩
      · simp at h
    · split at h
      · simp at h
      · obtain ⟨d, hd, rfl⟩ := ih h
        exact ⟨d, List.mem_cons_of_mem _ hd, rfl⟩

/-- What waits for some owners, the entry's own among them, before and behind the entry. -/
theorem flatMap_listing_cons (b : Builder) {before behind : List (Option Nat)} {e : Entry}
    (rest : List Entry) (hkeys : (before ++ e.owner :: behind).Nodup)
    (hid : some e.id ∉ before ++ e.owner :: behind) :
    (before ++ e.owner :: behind).flatMap (b.listing (e :: rest))
      = before.flatMap (b.listing rest)
        ++ b.bare e :: (some e.id :: e.owner :: behind).flatMap (b.listing rest) := by
  have hsame : ∀ part : List (Option Nat), e.owner ∉ part → some e.id ∉ part →
      part.flatMap (b.listing (e :: rest)) = part.flatMap (b.listing rest) := by
    intro part hpart hidpart
    refine List.flatMap_congr fun key hkey => ?_
    exact b.listing_cons_of_ne rest (fun heq => hpart (heq ▸ hkey)) fun heq =>
      hidpart (heq ▸ hkey)
  rw [List.nodup_middle, List.nodup_cons, List.mem_append, not_or] at hkeys
  simp only [List.mem_append, List.mem_cons, not_or] at hid
  rw [List.flatMap_append, List.flatMap_cons, hsame before hkeys.1.1 hid.1,
    hsame behind hkeys.1.2 hid.2.2, b.listing_cons_owner rest hid.2.1, List.flatMap_cons,
    List.flatMap_cons, List.cons_append, List.append_assoc]

/-! ## Every token is there once

`keys` are the owners for which something may wait: the top level, and the tokens fed before. -/

/-- Each entry is new and owned by a key or by an entry before it. -/
def Rooted : List (Option Nat) → List Entry → Prop
  | _, [] => True
  | keys, e :: rest => e.owner ∈ keys ∧ some e.id ∉ keys ∧ Rooted (some e.id :: keys) rest

/-- One more entry keeps a list rooted if its owner is there and it is not there itself. -/
theorem rooted_append_singleton {keys : List (Option Nat)} {fed : List Entry} {e : Entry} :
    Rooted keys (fed ++ [e]) ↔ Rooted keys fed
      ∧ e.owner ∈ (fed.map fun d => some d.id).reverse ++ keys
      ∧ some e.id ∉ (fed.map fun d => some d.id).reverse ++ keys := by
  induction fed generalizing keys with
  | nil => simp [Rooted]
  | cons d rest ih =>
    simp only [List.cons_append, Rooted, ih, List.map_cons, List.reverse_cons, List.append_assoc,
      List.nil_append, and_assoc]

/-- What waits for the keys is what was fed. Nothing is lost while rows are put below their owners,
whatever the order of the entries. -/
theorem forest_perm (b : Builder) {keys : List (Option Nat)} {fed : List Entry}
    (hkeys : keys.Nodup) (h : Rooted keys fed) :
    (keys.flatMap (b.listing fed)).Perm (fed.map b.bare) := by
  -- on the entries, the oldest first: each becomes one more key for those behind it
  induction fed generalizing keys with
  | nil => simp
  | cons e rest ih =>
    obtain ⟨howner, hid, hrest⟩ := h
    have ih := ih (List.nodup_cons.mpr ⟨hid, hkeys⟩) hrest
    obtain ⟨before, behind, rfl⟩ := List.append_of_mem howner
    rw [b.flatMap_listing_cons rest hkeys hid, List.map_cons]
    rw [List.flatMap_cons, List.flatMap_append] at ih
    -- `e` comes out before what waits for it, and both among what waits for the keys
    refine List.perm_middle.trans (List.Perm.cons _ (List.Perm.trans ?_ ih))
    rw [List.flatMap_cons]
    exact List.perm_append_comm_assoc _ _ _

/-! ## The order of feeding -/

/-- The spine behind an entry: the entry, its owner, and what is above its owner. -/
def spineStep (spine : List (Option Nat)) (e : Entry) : List (Option Nat) :=
  some e.id :: spine.dropWhile (· != e.owner)

/-- Each entry is owned by a token on the spine or by the top level. -/
def InTurn : List (Option Nat) → List Entry → Prop
  | _, [] => True
  | spine, e :: rest => e.owner ∈ spine ∧ InTurn (spineStep spine e) rest

/-- One more entry is in turn if its owner is on the spine that the entries before it leave. -/
theorem inTurn_append_singleton {spine : List (Option Nat)} {fed : List Entry} {e : Entry} :
    InTurn spine (fed ++ [e]) ↔ InTurn spine fed ∧ e.owner ∈ fed.foldl spineStep spine := by
  induction fed generalizing spine with
  | nil => simp [InTurn]
  | cons d rest ih => simp only [List.cons_append, InTurn, ih, List.foldl_cons, and_assoc]

/-- No entry repeats another one or one on the spine. -/
def Fresh (spine : List (Option Nat)) (fed : List Entry) : Prop :=
  (spine ++ fed.map fun e => some e.id).Nodup

/-- The spine cut at an entry's owner. -/
theorem exists_spine_split {spine : List (Option Nat)} {e : Entry} (h : e.owner ∈ spine) :
    ∃ before behind, spine = before ++ e.owner :: behind ∧ e.owner ∉ before
      ∧ spineStep spine e = some e.id :: e.owner :: behind := by
  induction spine with
  | nil => simp at h
  | cons key rest ih =>
    by_cases hkey : key = e.owner
    · exact ⟨[], rest, by simp [hkey], by simp, by simp [spineStep, hkey]⟩
    · have h : e.owner ∈ rest := by
        rcases List.mem_cons.mp h with heq | h
        · exact absurd heq.symm hkey
        · exact h
      obtain ⟨before, behind, rfl, hnot, hstep⟩ := ih h
      refine ⟨key :: before, behind, rfl, ?_, ?_⟩
      · simp only [List.mem_cons, not_or]
        exact ⟨Ne.symm hkey, hnot⟩
      · rw [← hstep, spineStep, List.dropWhile_cons, if_pos (by simpa using hkey), spineStep]

theorem Fresh.nodup {spine : List (Option Nat)} {fed : List Entry} (h : Fresh spine fed) :
    spine.Nodup := (List.nodup_append.mp h).1

theorem Fresh.not_mem {spine : List (Option Nat)} {e : Entry} {rest : List Entry}
    (h : Fresh spine (e :: rest)) : some e.id ∉ spine := by
  intro hmem
  exact (List.nodup_append.mp h).2.2 _ hmem (some e.id) (by simp) rfl

/-- Behind an entry the spine is cut at its owner and goes on with the entry, and all is as fresh as
before. -/
theorem Fresh.tail {before behind : List (Option Nat)} {e : Entry} {rest : List Entry}
    (h : Fresh (before ++ e.owner :: behind) (e :: rest)) :
    Fresh (some e.id :: e.owner :: behind) rest := by
  rw [Fresh, List.map_cons, List.append_assoc] at h
  have h := (List.nodup_append.mp h).2.1
  rw [Fresh]
  exact (List.perm_middle.nodup_iff).mp h

/-- Nothing waits for an owner that no entry has. -/
theorem forest_eq_nil (b : Builder) {fed : List Entry} {owner : Option Nat}
    (h : ∀ e ∈ fed, e.owner ≠ owner) : b.forest fed owner = [] := by
  induction fed with
  | nil => rfl
  | cons e rest ih =>
    rw [forest_cons, if_neg (h e List.mem_cons_self), List.nil_append,
      ih fun d hd => h d (List.mem_cons_of_mem _ hd), ite_self]

theorem listing_eq_nil (b : Builder) {fed : List Entry} {owner : Option Nat}
    (h : ∀ e ∈ fed, e.owner ≠ owner) : b.listing fed owner = [] := by
  rw [listing, b.forest_eq_nil h]
  rfl

/-- Entries in turn are owned by the spine or by each other. -/
theorem InTurn.owner_mem {spine : List (Option Nat)} {fed : List Entry} (h : InTurn spine fed) :
    ∀ e ∈ fed, e.owner ∈ spine ++ fed.map fun d => some d.id := by
  induction fed generalizing spine with
  | nil => simp
  | cons e rest ih =>
    obtain ⟨howner, hrest⟩ := h
    obtain ⟨before, behind, rfl, -, hstep⟩ := exists_spine_split howner
    intro d hd
    rcases List.mem_cons.mp hd with rfl | hd
    · exact List.mem_append_left _ howner
    · have hmem := ih hrest d hd
      rw [hstep] at hmem
      simp only [List.cons_append, List.mem_cons, List.mem_append, List.map_cons] at hmem ⊢
      tauto

/-- What was below the owner of an entry is off the spine behind it, and no entry can reach it. This
is why a token that is out of turn cannot come out in its place. -/
theorem InTurn.owner_notMem {before behind : List (Option Nat)} {e : Entry} {rest : List Entry}
    (hfresh : Fresh (before ++ e.owner :: behind) (e :: rest))
    (h : InTurn (some e.id :: e.owner :: behind) rest) {key : Option Nat} (hkey : key ∈ before) :
    ∀ d ∈ rest, d.owner ≠ key := by
  intro d hd heq
  have hmem := h.owner_mem d hd
  rw [heq] at hmem
  rw [Fresh, List.append_assoc] at hfresh
  have hdisjoint := (List.nodup_append.mp hfresh).2.2 key hkey key
  refine hdisjoint ?_ rfl
  simp only [List.cons_append, List.mem_cons, List.mem_append, List.map_cons] at hmem ⊢
  tauto

/-- Entries in turn come out in the order in which they were fed. The spine is the way from the
newest entry up, and the listing goes down that way from its end. -/
theorem flatMap_listing_of_inTurn (b : Builder) {spine : List (Option Nat)} {fed : List Entry}
    (hfresh : Fresh spine fed) (h : InTurn spine fed) :
    spine.flatMap (b.listing fed) = fed.map b.bare := by
  induction fed generalizing spine with
  | nil => simp
  | cons e rest ih =>
    obtain ⟨howner, hrest⟩ := h
    obtain ⟨before, behind, rfl, hbefore, hstep⟩ := exists_spine_split howner
    rw [hstep] at hrest
    rw [b.flatMap_listing_cons rest hfresh.nodup hfresh.not_mem, ih hfresh.tail hrest,
      List.map_cons]
    have hnone : ∀ key ∈ before, b.listing rest key = [] := fun key hkey =>
      b.listing_eq_nil (hrest.owner_notMem hfresh hkey)
    rw [List.flatMap_eq_nil_iff.mpr hnone, List.nil_append]

/-- Where the offsets grow and come out in the order of feeding, every entry was in turn. The first
one that is not would come out before one that was fed sooner, and so has a smaller offset. -/
theorem inTurn_of_offsets (b : Builder) {spine : List (Option Nat)} {fed : List Entry}
    (hfresh : Fresh spine fed) (hgrow : (fed.map (·.offset)).Pairwise (· < ·))
    (h : (spine.flatMap (b.listing fed)).map (·.offset) = fed.map (·.offset)) :
    InTurn spine fed := by
  induction fed generalizing spine with
  | nil => trivial
  | cons e rest ih =>
    rw [List.map_cons, List.pairwise_cons] at hgrow
    -- the offset of `e` is below all that wait once `e` is left out
    have habove : ∀ key, ∀ t ∈ b.listing rest key, t.offset ≠ e.offset := by
      intro key t ht
      obtain ⟨d, hd, rfl⟩ := b.mem_of_mem_listing ht
      exact Int.ne_of_gt (hgrow.1 d.offset (List.mem_map_of_mem hd))
    -- owned by no key, `e` would not come out at all
    have howner : e.owner ∈ spine := by
      by_contra hnot
      have hmem : e.offset ∈ (spine.flatMap (b.listing (e :: rest))).map (·.offset) := by
        rw [h]
        exact List.mem_cons_self
      obtain ⟨t, ht, heq⟩ := List.mem_map.mp hmem
      obtain ⟨key, hkey, ht⟩ := List.mem_flatMap.mp ht
      rw [b.listing_cons_of_ne rest (fun heq => hnot (heq ▸ hkey)) fun heq =>
        hfresh.not_mem (heq ▸ hkey)] at ht
      exact habove key t ht heq
    obtain ⟨before, behind, rfl, -, hstep⟩ := exists_spine_split howner
    refine ⟨howner, ?_⟩
    rw [hstep]
    rw [b.flatMap_listing_cons rest hfresh.nodup hfresh.not_mem] at h
    cases hbefore : before.flatMap (b.listing rest) with
    | nil =>
      rw [hbefore, List.nil_append, List.map_cons, List.map_cons] at h
      exact ih hfresh.tail hgrow.2 (List.cons.inj h).2
    | cons t more =>
      -- something that waited below the owner would come out before `e`
      rw [hbefore, List.cons_append, List.map_cons, List.map_cons] at h
      have ht : t ∈ before.flatMap (b.listing rest) := hbefore ▸ List.mem_cons_self
      obtain ⟨key, -, ht⟩ := List.mem_flatMap.mp ht
      exact absurd (List.cons.inj h).1 (habove key t ht)

end Builder

end Orthography
