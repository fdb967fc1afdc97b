import LooseData.Tag
import Mathlib.Data.List.TakeWhile

set_option autoImplicit false

/-! # A text has one reading as tags and a payload

A text `t₁:t₂:…:tₙ:p` splits into tags `tᵢ`, which are nonempty runs of word characters, and a
payload `p` that is not tagged itself. Every text splits in exactly one way (`splits_iff_spine`):
a tag ends at the first colon, since the colon is no word character, and the payload ends the
list of tags, since it is not tagged.
-/

namespace LooseData.Tag

/-- A tag is a nonempty run of ASCII word characters. -/
def IsTag (tag : List Char) : Prop := tag ≠ [] ∧ ∀ c ∈ tag, Text.isAsciiWord c = true

-- Decided through the characters of the tag, not through all characters that there are.
instance (tag : List Char) : Decidable (IsTag tag) :=
  @instDecidableAnd _ _ _ (List.decidableBAll _ tag)

/-- The text has the form of a tag, a colon and a payload. -/
def HasTag (cs : List Char) : Prop := ∃ tag payload, IsTag tag ∧ cs = tag ++ ':' :: payload

/-- The text consists of the given tags, each with a colon behind it, and of a payload that does
not have a tag. -/
structure Splits (cs : List Char) (tags : List (List Char)) (payload : List Char) : Prop where
  written_eq : written tags payload = cs
  isTag : ∀ tag ∈ tags, IsTag tag
  untagged : ¬ HasTag payload

/-! ## The first tag -/

theorem takeWhile_tag {tag : List Char} (h : IsTag tag) (payload : List Char) :
    (tag ++ ':' :: payload).takeWhile Text.isAsciiWord = tag := by
  rw [List.takeWhile_append_of_pos h.2, List.takeWhile_cons_of_neg (by decide), List.append_nil]

theorem dropWhile_tag {tag : List Char} (h : IsTag tag) (payload : List Char) :
    (tag ++ ':' :: payload).dropWhile Text.isAsciiWord = ':' :: payload := by
  rw [List.dropWhile_append_of_pos h.2, List.dropWhile_cons_of_neg (by decide)]

/-- The first tag ends at the first colon. -/
theorem split?_eq_some_iff {cs tag payload : List Char} :
    split? cs = some (tag, payload) ↔ IsTag tag ∧ cs = tag ++ ':' :: payload := by
  constructor
  · intro h
    unfold split? at h
    dsimp only at h
    split at h
    · rename_i rest hdrop
      split at h
      · cases h
      · rename_i hne
        obtain ⟨rfl, rfl⟩ := Prod.mk.inj (Option.some.inj h)
        refine ⟨⟨by simpa using hne, fun c hc => List.mem_takeWhile_imp hc⟩, ?_⟩
        rw [← hdrop, List.takeWhile_append_dropWhile]
    · cases h
  · rintro ⟨htag, rfl⟩
    rw [split?, dropWhile_tag htag, takeWhile_tag htag]
    simp [htag.1]

theorem split?_eq_none_iff {cs : List Char} : split? cs = none ↔ ¬ HasTag cs := by
  rw [Option.eq_none_iff_forall_ne_some]
  constructor
  · rintro h ⟨tag, payload, htag, rfl⟩
    exact h (tag, payload) (split?_eq_some_iff.mpr ⟨htag, rfl⟩)
  · rintro h ⟨tag, payload⟩ hsome
    obtain ⟨htag, rfl⟩ := split?_eq_some_iff.mp hsome
    exact h ⟨tag, payload, htag, rfl⟩

/-- What the test for a tag decides. -/
theorem isTagged_iff {cs : List Char} : isTagged cs = true ↔ HasTag cs := by
  rw [isTagged, ← not_iff_not, ← split?_eq_none_iff, Bool.not_eq_true, Option.isSome_eq_false_iff,
    Option.isNone_iff_eq_none]

/-! ## All tags -/

/-- Characters that belong to a tag already are passed over. -/
theorem spineFrom_eq (used : Nat) (cs : List Char) : spineFrom used cs = spine (cs.drop used) := by
  induction used generalizing cs with
  | zero => rfl
  | succ used ih =>
      cases cs with
      | nil => rfl
      | cons c cs => exact ih cs

theorem spine_of_split {cs tag payload : List Char} (h : split? cs = some (tag, payload)) :
    spine cs = (tag :: (spine payload).1, (spine payload).2) := by
  obtain ⟨htag, rfl⟩ := split?_eq_some_iff.mp h
  obtain ⟨c, tag, rfl⟩ := List.exists_cons_of_ne_nil htag.1
  rw [List.cons_append] at h ⊢
  rw [spine, spineFrom, h]
  show (_ :: (spineFrom (c :: tag).length (tag ++ ':' :: payload)).1,
    (spineFrom (c :: tag).length (tag ++ ':' :: payload)).2) = _
  rw [spineFrom_eq, List.length_cons, Nat.add_comm, List.drop_append, List.drop_of_length_le
    (by omega), List.nil_append, Nat.add_sub_cancel, List.drop_succ_cons, List.drop_zero]

theorem spine_of_not_hasTag {cs : List Char} (h : ¬ HasTag cs) : spine cs = ([], cs) := by
  rw [← split?_eq_none_iff] at h
  cases cs with
  | nil => rfl
  | cons c cs => rw [spine, spineFrom, h]

/-- Taking off the tags gives a split of the text. -/
theorem splits_spine (cs : List Char) : Splits cs (spine cs).1 (spine cs).2 := by
  induction hn : cs.length using Nat.strong_induction_on generalizing cs with
  | _ n ih =>
      by_cases htag : HasTag cs
      · obtain ⟨tag, payload, htag, rfl⟩ := htag
        rw [spine_of_split (split?_eq_some_iff.mpr ⟨htag, rfl⟩)]
        have hlen : payload.length < n := by
          rw [← hn, List.length_append, List.length_cons]
          omega
        obtain ⟨hwritten, htags, hpayload⟩ := ih _ hlen payload rfl
        refine ⟨by rw [written, hwritten], ?_, hpayload⟩
        intro t ht
        rcases List.mem_cons.mp ht with rfl | ht
        · exact htag
        · exact htags t ht
      · rw [spine_of_not_hasTag htag]
        exact ⟨rfl, by simp, htag⟩

theorem Splits.split?_eq_none {cs payload : List Char} (h : Splits cs [] payload) :
    split? cs = none ∧ cs = payload := by
  obtain ⟨rfl, -, huntagged⟩ := h
  exact ⟨split?_eq_none_iff.mpr huntagged, rfl⟩

/-- The first tag of a split is the one that is taken off, since both end at a colon. -/
theorem Splits.split?_cons {cs tag payload : List Char} {tags : List (List Char)}
    (h : Splits cs (tag :: tags) payload) :
    split? cs = some (tag, written tags payload) ∧ Splits (written tags payload) tags payload := by
  obtain ⟨rfl, htags, huntagged⟩ := h
  obtain ⟨htag, htags⟩ := List.forall_mem_cons.mp htags
  exact ⟨split?_eq_some_iff.mpr ⟨htag, rfl⟩, rfl, htags, huntagged⟩

/-- **There is one split of a text**, and taking off the tags finds it. -/
theorem splits_iff_spine {cs : List Char} {tags : List (List Char)} {payload : List Char} :
    Splits cs tags payload ↔ spine cs = (tags, payload) := by
  constructor
  · intro h
    induction tags generalizing cs with
    | nil =>
        obtain ⟨hnone, rfl⟩ := h.split?_eq_none
        exact spine_of_not_hasTag (split?_eq_none_iff.mp hnone)
    | cons tag tags ih =>
        obtain ⟨hsplit, hrest⟩ := h.split?_cons
        rw [spine_of_split hsplit, ih hrest]
  · intro h
    have hsplits := splits_spine cs
    rwa [h] at hsplits

end LooseData.Tag
