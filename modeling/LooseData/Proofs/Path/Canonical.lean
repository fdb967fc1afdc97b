import LooseData.Proofs.Path.Pieces
import Mathlib

set_option autoImplicit false

/-! # Normal forms that are canonical

A path is canonical if it starts with no dot and no two of its dots are neighbours. Normalising
takes one dot off the start and makes one dot of two, each in one pass, so it does not always arrive
at a canonical path. What is left over is a dot in front of a path that started with two, and two
dots where three had come together: in the text itself, or at a bracket group, whose ends count as
dots wherever something stands next to them (`Crowded`).

So the normal form of a path is canonical exactly if the path has neither, a path is its own normal
form after one more pass exactly if it is canonical, and normalising again and again ends with a
canonical path (`Value.normalizePath_canonical_iff`).
-/

namespace LooseData

namespace Path

variable {key group cs rest : List Char} {c : Char}

/-- A path that starts with no dot and of whose dots no two are neighbours. -/
structure IsCanonical (cs : List Char) : Prop where
  not_leading : ¬ ['.'] <+: cs
  not_double : ¬ ['.', '.'] <:+: cs

instance (cs : List Char) : Decidable (IsCanonical cs) :=
  decidable_of_iff (¬ ['.'] <+: cs ∧ ¬ ['.', '.'] <:+: cs)
    ⟨fun h => ⟨h.1, h.2⟩, fun h => ⟨h.not_leading, h.not_double⟩⟩

/-- Three dots that come together, where the ends of a bracket group count as dots. -/
inductive Crowded : List Char → Prop where
  | dots : Crowded ['.', '.', '.']
  | before {key group : List Char} (h : FoundGroup key group) : Crowded ('.' :: '.' :: group)
  | behind {key group : List Char} (h : FoundGroup key group) : Crowded (group ++ ['.', '.'])
  | between {key group key' group' : List Char} (h : FoundGroup key group)
      (h' : FoundGroup key' group') : Crowded (group ++ '.' :: group')

/-- The text with the keys of its bracket groups in place of the groups, and a dot wherever
something stands next to a group. -/
def ungrouped (cs : List Char) : List Char :=
  Text.joinWith '.' ((pieces 0 cs).filter fun piece => !piece.isEmpty)

theorem normalize_eq (cs : List Char) : normalize cs = collapseDots (ungrouped (dropDot cs)) := rfl

/-! ## Groups at the start of a text -/

/-- A text consists of bracket groups and of characters at which none starts. -/
@[elab_as_elim]
theorem induction_groups {motive : List Char → Prop} (nil : motive [])
    (group : ∀ key group rest, FoundGroup key group → motive rest → motive (group ++ rest))
    (char : ∀ c cs, group? (c :: cs) = none → motive cs → motive (c :: cs)) (cs : List Char) :
    motive cs := by
  induction hn : cs.length using Nat.strong_induction_on generalizing cs with
  | _ n ih =>
      cases cs with
      | nil => exact nil
      | cons c cs =>
          cases hgroup : group? (c :: cs) with
          | none =>
              refine char c cs hgroup (ih cs.length ?_ cs rfl)
              rw [← hn, List.length_cons]
              omega
          | some found =>
              obtain ⟨key, length⟩ := found
              obtain ⟨front, back, hfound, hcs, -⟩ := exists_foundGroup_of_group? hgroup
              rw [hcs] at hn ⊢
              refine group key front back hfound (ih back.length ?_ back rfl)
              have hpos := hfound.length_pos
              rw [← hn, List.length_append]
              omega

/-- A group opens with a bracket, behind which it has neither a bracket of that kind nor a dot. -/
theorem FoundGroup.exists_body (h : FoundGroup key group) :
    ∃ body, group = '[' :: body ∧ '[' ∉ body ∧ '.' ∉ body := by
  have hopen := h.open_notMem_key
  have hdot := h.dot_notMem
  cases h with
  | number => exact ⟨_, rfl, by simpa using hopen, by simpa using hdot⟩
  | word hopening hclosing _ _ =>
      refine ⟨_, rfl, ?_, by simpa using hdot⟩
      rcases eq_or_eq_of_isQuote hopening with rfl | rfl <;>
        rcases eq_or_eq_of_isQuote hclosing with rfl | rfl <;> simpa using hopen

theorem FoundGroup.exists_key (h : FoundGroup key group) :
    ∃ first others, key = first :: others ∧ first ≠ '.' ∧ '.' ∉ others := by
  have hdot : '.' ∉ key := by
    cases h with
    | number _ h => exact notMem_of_forall (by decide) h
    | word _ _ _ h => exact notMem_of_forall (by decide) h
  have hne : key ≠ [] := by
    cases h with
    | number hne => exact hne
    | word _ _ hne => exact hne
  obtain ⟨first, others, rfl⟩ := List.exists_cons_of_ne_nil hne
  obtain ⟨hfirst, hothers⟩ := not_or.mp (fun hmem => hdot (List.mem_cons.mpr hmem))
  exact ⟨first, others, rfl, Ne.symm hfirst, hothers⟩

/-- There is one group at the start of a text. -/
theorem FoundGroup.eq_of_append {key' group' rest' : List Char} (h : FoundGroup key group)
    (h' : FoundGroup key' group') (heq : group ++ rest = group' ++ rest') :
    group = group' ∧ rest = rest' := by
  have hlength : some (key, group.length) = some (key', group'.length) := by
    rw [← h.group?_append rest, ← h'.group?_append rest', heq]
  exact List.append_inj heq (congrArg Prod.snd (Option.some.inj hlength))

/-- Where no group starts, none is in front. -/
theorem FoundGroup.not_prefix (h : FoundGroup key group) (hnone : group? cs = none) :
    ¬ group <+: cs := by
  rintro ⟨rest, rfl⟩
  cases (h.group?_append rest).symm.trans hnone

/-! ## Groups replaced by their keys -/

/-- A text has a piece that is not empty. -/
theorem exists_piece_of_ne_nil (h : cs ≠ []) :
    ∃ piece others, (pieces 0 cs).filter (fun piece => !piece.isEmpty) = piece :: others := by
  obtain ⟨c, cs, rfl⟩ := List.exists_cons_of_ne_nil h
  cases hgroup : group? (c :: cs) with
  | some found =>
      obtain ⟨key, length⟩ := found
      obtain ⟨front, back, hfound, hcs, -⟩ := exists_foundGroup_of_group? hgroup
      obtain ⟨first, others, rfl, -, -⟩ := hfound.exists_key
      rw [hcs, hfound.pieces_append]
      exact ⟨_, _, rfl⟩
  | none =>
      obtain ⟨piece, others, hpieces⟩ := List.exists_cons_of_ne_nil (pieces_ne_nil 0 cs)
      rw [pieces_cons_of_eq_none hgroup, hpieces]
      exact ⟨_, _, rfl⟩

/-- **A group gives way to its key**, with a dot behind it unless it ends the text. -/
theorem FoundGroup.ungrouped_append (h : FoundGroup key group) (rest : List Char) :
    ungrouped (group ++ rest) = key ++ if rest = [] then [] else '.' :: ungrouped rest := by
  obtain ⟨first, others, rfl, -, -⟩ := h.exists_key
  unfold ungrouped
  rw [h.pieces_append]
  cases rest with
  | nil => simp [pieces, Text.joinWith]
  | cons c rest =>
      obtain ⟨piece, pieces', hpieces⟩ := exists_piece_of_ne_nil (List.cons_ne_nil c rest)
      simp [hpieces, Text.joinWith]

/-- **A character at which no group starts stays**, with a dot behind it if a group follows. -/
theorem ungrouped_cons (h : group? (c :: cs) = none) :
    ungrouped (c :: cs) = c :: if (group? cs).isSome then '.' :: ungrouped cs else ungrouped cs := by
  unfold ungrouped
  rw [pieces_cons_of_eq_none h]
  cases hgroup : group? cs with
  | some found =>
      obtain ⟨key, length⟩ := found
      obtain ⟨front, back, hfound, rfl, -⟩ := exists_foundGroup_of_group? hgroup
      obtain ⟨first, others, rfl, -, -⟩ := hfound.exists_key
      rw [hfound.pieces_append]
      simp [Text.joinWith]
  | none =>
      cases cs with
      | nil => rfl
      | cons d ds =>
          obtain ⟨piece, others, hpieces⟩ := List.exists_cons_of_ne_nil (pieces_ne_nil 0 ds)
          rw [pieces_cons_of_eq_none hgroup, hpieces]
          cases hothers : others.filter (fun piece => !piece.isEmpty) with
          | nil => simp [Text.joinWith, hothers]
          | cons _ _ => simp [Text.joinWith, hothers]

/-! ## Dots that come together -/

/-- A text with a dot at its start has one there when its groups have given way to keys. -/
theorem dot_prefix_ungrouped_iff : ['.'] <+: ungrouped cs ↔ ['.'] <+: cs := by
  induction cs using induction_groups with
  | nil => rfl
  | group key group rest h _ =>
      obtain ⟨first, others, rfl, hfirst, -⟩ := h.exists_key
      obtain ⟨body, rfl, -, -⟩ := h.exists_body
      rw [h.ungrouped_append]
      simp [Ne.symm hfirst]
  | char c cs h _ =>
      rw [ungrouped_cons h]
      simp

/-- Two dots at the start come from two dots, or from a dot and the end of a group. -/
theorem double_prefix_ungrouped_iff : ['.', '.'] <+: ungrouped cs ↔
    ['.', '.'] <+: cs ∨ ∃ key group, FoundGroup key group ∧ '.' :: group <+: cs := by
  induction cs using induction_groups with
  | nil => simp [ungrouped, pieces, Text.joinWith]
  | group key group rest h _ =>
      obtain ⟨first, others, rfl, hfirst, -⟩ := h.exists_key
      obtain ⟨body, rfl, -, -⟩ := h.exists_body
      rw [h.ungrouped_append]
      simp [Ne.symm hfirst]
  | char c cs h _ =>
      rw [ungrouped_cons h, List.cons_prefix_cons]
      cases hgroup : group? cs with
      | some found =>
          obtain ⟨key, length⟩ := found
          obtain ⟨front, back, hfound, rfl, -⟩ := exists_foundGroup_of_group? hgroup
          constructor
          · rintro ⟨rfl, -⟩
            exact .inr ⟨key, front, hfound, by simp⟩
          · rintro (hdots | ⟨_, _, -, hdot⟩)
            · exact ⟨(List.cons_prefix_cons.mp hdots).1, by simp⟩
            · exact ⟨(List.cons_prefix_cons.mp hdot).1, by simp⟩
      | none =>
          rw [if_neg (by simp), dot_prefix_ungrouped_iff]
          constructor
          · rintro ⟨rfl, hdot⟩
            exact .inl (List.cons_prefix_cons.mpr ⟨rfl, hdot⟩)
          · rintro (hdots | ⟨_, _, hfound, hdot⟩)
            · exact List.cons_prefix_cons.mp hdots
            · exact absurd (List.cons_prefix_cons.mp hdot).2 (hfound.not_prefix hgroup)

/-- What starts with a mark that is not in the front of a text occurs behind the front. -/
theorem infix_append_of_notMem {mark : Char} {front part : List Char} (h : mark ∉ front)
    (back : List Char) : mark :: part <:+: front ++ back ↔ mark :: part <:+: back := by
  induction front with
  | nil => rfl
  | cons c front ih =>
      obtain ⟨hc, hfront⟩ := not_or.mp (fun hmem => h (List.mem_cons.mpr hmem))
      rw [List.cons_append, List.infix_cons_iff, ih hfront]
      simp [hc]

theorem Crowded.exists_mark {crowd : List Char} (h : Crowded crowd) :
    ∃ part, crowd = '.' :: part ∨ crowd = '[' :: part := by
  cases h with
  | dots => exact ⟨_, .inl rfl⟩
  | before => exact ⟨_, .inl rfl⟩
  | behind h =>
      obtain ⟨body, rfl, -, -⟩ := h.exists_body
      exact ⟨_, .inr rfl⟩
  | between h =>
      obtain ⟨body, rfl, -, -⟩ := h.exists_body
      exact ⟨_, .inr rfl⟩

/-- A crowd in front of a text that starts with a group is that group and what stands behind it. -/
theorem FoundGroup.exists_crowd_prefix_iff (h : FoundGroup key group) (rest : List Char) :
    (∃ crowd, Crowded crowd ∧ crowd <+: group ++ rest) ↔
      ['.', '.'] <+: rest ∨ ∃ key' group', FoundGroup key' group' ∧ '.' :: group' <+: rest := by
  constructor
  · rintro ⟨crowd, hcrowd, behind, heq⟩
    have hopen : ∃ body, group = '[' :: body := (h.exists_body).imp fun _ hbody => hbody.1
    obtain ⟨body, hbody⟩ := hopen
    cases hcrowd with
    | dots => simp [hbody] at heq
    | before => simp [hbody] at heq
    | behind h' =>
        rw [List.append_assoc] at heq
        obtain ⟨-, rfl⟩ := h'.eq_of_append h heq
        exact .inl (List.prefix_append _ _)
    | between h' h'' =>
        rw [List.append_assoc] at heq
        obtain ⟨-, rfl⟩ := h'.eq_of_append h heq
        exact .inr ⟨_, _, h'', List.prefix_append _ _⟩
  · rintro (hdots | ⟨key', group', h', hdot⟩)
    · exact ⟨_, .behind h, (List.prefix_append_right_inj group).mpr hdots⟩
    · exact ⟨_, .between h h', (List.prefix_append_right_inj group).mpr hdot⟩

/-- A crowd in front of a text that starts with no group consists of the dots at its start. -/
theorem exists_crowd_prefix_cons_iff (h : group? (c :: cs) = none) :
    (∃ crowd, Crowded crowd ∧ crowd <+: c :: cs) ↔
      c = '.' ∧ (['.', '.'] <+: cs ∨ ∃ key group, FoundGroup key group ∧ '.' :: group <+: cs) := by
  constructor
  · rintro ⟨crowd, hcrowd, hprefix⟩
    cases hcrowd with
    | dots =>
        obtain ⟨hc, hdots⟩ := List.cons_prefix_cons.mp hprefix
        exact ⟨hc.symm, .inl hdots⟩
    | before hfound =>
        obtain ⟨hc, hdot⟩ := List.cons_prefix_cons.mp hprefix
        exact ⟨hc.symm, .inr ⟨_, _, hfound, hdot⟩⟩
    | behind hfound =>
        exact absurd ((List.prefix_append _ _).trans hprefix) (hfound.not_prefix h)
    | between hfound =>
        exact absurd ((List.prefix_append _ _).trans hprefix) (hfound.not_prefix h)
  · rintro ⟨rfl, hdots | ⟨key, group, hfound, hdot⟩⟩
    · exact ⟨_, .dots, List.cons_prefix_cons.mpr ⟨rfl, hdots⟩⟩
    · exact ⟨_, .before hfound, List.cons_prefix_cons.mpr ⟨rfl, hdot⟩⟩

theorem exists_crowd_infix_cons_iff : (∃ crowd, Crowded crowd ∧ crowd <:+: c :: cs) ↔
    (∃ crowd, Crowded crowd ∧ crowd <+: c :: cs) ∨ ∃ crowd, Crowded crowd ∧ crowd <:+: cs := by
  simp only [List.infix_cons_iff, and_or_left, exists_or]

/-- No crowd starts inside a group. -/
theorem FoundGroup.exists_crowd_infix_iff (h : FoundGroup key group) (rest : List Char) :
    (∃ crowd, Crowded crowd ∧ crowd <:+: group ++ rest) ↔
      (∃ crowd, Crowded crowd ∧ crowd <+: group ++ rest) ∨
        ∃ crowd, Crowded crowd ∧ crowd <:+: rest := by
  obtain ⟨body, rfl, hopen, hdot⟩ := h.exists_body
  rw [List.cons_append, exists_crowd_infix_cons_iff]
  refine or_congr_right (exists_congr fun crowd => and_congr_right fun hcrowd => ?_)
  rcases hcrowd.exists_mark with ⟨part, rfl | rfl⟩
  · exact infix_append_of_notMem hdot rest
  · exact infix_append_of_notMem hopen rest

/-- **Three dots in a row** are there, once the groups have given way to keys, exactly if the text
has a crowd. -/
theorem triple_infix_ungrouped_iff : ['.', '.', '.'] <:+: ungrouped cs ↔
    ∃ crowd, Crowded crowd ∧ crowd <:+: cs := by
  induction cs using induction_groups with
  | nil =>
      constructor
      · intro h
        cases List.infix_nil.mp h
      · rintro ⟨crowd, hcrowd, h⟩
        obtain ⟨part, rfl | rfl⟩ := hcrowd.exists_mark
        · cases List.infix_nil.mp h
        · cases List.infix_nil.mp h
  | group key group rest h ih =>
      obtain ⟨first, others, rfl, hfirst, hothers⟩ := h.exists_key
      have hkey : '.' ∉ first :: others := by simp [Ne.symm hfirst, hothers]
      have hbehind : ['.', '.', '.'] <:+: (if rest = [] then [] else '.' :: ungrouped rest) ↔
          ['.', '.'] <+: ungrouped rest ∨ ['.', '.', '.'] <:+: ungrouped rest := by
        split
        · rename_i hnil
          simp [hnil, ungrouped, pieces, Text.joinWith]
        · simp [List.infix_cons_iff]
      rw [h.ungrouped_append, infix_append_of_notMem hkey, hbehind, double_prefix_ungrouped_iff, ih,
        h.exists_crowd_infix_iff, h.exists_crowd_prefix_iff]
  | char c cs h ih =>
      have hchar : ['.', '.', '.'] <:+: ungrouped (c :: cs) ↔
          c = '.' ∧ ['.', '.'] <+: ungrouped cs ∨ ['.', '.', '.'] <:+: ungrouped cs := by
        rw [ungrouped_cons h]
        cases hgroup : group? cs with
        | none => simp [List.infix_cons_iff, eq_comm]
        | some found =>
            -- A key stands behind the dot, so the dots of both sides stay apart.
            obtain ⟨key, length⟩ := found
            obtain ⟨front, back, hfound, rfl, -⟩ := exists_foundGroup_of_group? hgroup
            obtain ⟨first, others, rfl, hfirst, -⟩ := hfound.exists_key
            rw [hfound.ungrouped_append]
            simp [List.infix_cons_iff, Ne.symm hfirst]
      rw [hchar, double_prefix_ungrouped_iff, ih, exists_crowd_infix_cons_iff,
        exists_crowd_prefix_cons_iff h]

/-! ## One pass over the dots -/

theorem dot_prefix_collapseDots_iff : ['.'] <+: collapseDots cs ↔ ['.'] <+: cs := by
  fun_cases collapseDots cs with
  | case1 => simp
  | case2 => simp
  | case3 => rfl

/-- **One pass leaves two dots** where there were three. -/
theorem double_infix_collapseDots_iff :
    ['.', '.'] <:+: collapseDots cs ↔ ['.', '.', '.'] <:+: cs := by
  fun_induction collapseDots cs with
  | case1 cs ih =>
      have hdot : ['.', '.'] <+: cs → ['.'] <+: cs := (List.prefix_append ['.'] ['.']).trans
      simp only [List.infix_cons_iff, List.cons_prefix_cons, true_and, ih,
        dot_prefix_collapseDots_iff]
      tauto
  | case2 c cs hnot ih =>
      -- Of `c` and the character behind it one is no dot.
      have hapart : ¬ (c = '.' ∧ ['.'] <+: cs) := by
        rintro ⟨rfl, rest, rfl⟩
        exact hnot rest rfl rfl
      have hdot : ['.', '.'] <+: cs → ['.'] <+: cs := (List.prefix_append ['.'] ['.']).trans
      simp only [List.infix_cons_iff, List.cons_prefix_cons, ih, dot_prefix_collapseDots_iff]
      tauto
  | case3 => simp

theorem length_collapseDots_le (cs : List Char) : (collapseDots cs).length ≤ cs.length := by
  fun_induction collapseDots cs with
  | case1 cs ih => simp only [List.length_cons]; omega
  | case2 c cs _ ih => simp only [List.length_cons]; omega
  | case3 => exact Nat.le_refl _

/-- A pass over dots of which no two are neighbours changes nothing. -/
theorem collapseDots_of_not_double (h : ¬ ['.', '.'] <:+: cs) : collapseDots cs = cs := by
  fun_induction collapseDots cs with
  | case1 cs _ => exact absurd (List.IsPrefix.isInfix ⟨cs, rfl⟩) h
  | case2 c cs _ ih => rw [ih fun hinfix => h (List.infix_cons hinfix)]
  | case3 => rfl

/-- A pass over dots of which two are neighbours makes the text shorter. -/
theorem length_collapseDots_lt (h : ['.', '.'] <:+: cs) : (collapseDots cs).length < cs.length := by
  fun_induction collapseDots cs with
  | case1 cs _ =>
      have hle := length_collapseDots_le cs
      simp only [List.length_cons]
      omega
  | case2 c cs hnot ih =>
      rcases List.infix_cons_iff.mp h with ⟨rest, hprefix⟩ | hinfix
      · obtain ⟨rfl, rfl⟩ := List.cons.inj hprefix
        exact absurd rfl (hnot rest rfl)
      · simpa only [List.length_cons, Nat.add_lt_add_iff_right] using ih hinfix
  | case3 => cases List.infix_nil.mp h

/-! ## The dot at the start -/

theorem dot_prefix_dropDot_iff : ['.'] <+: dropDot cs ↔ ['.', '.'] <+: cs := by
  fun_cases dropDot cs with
  | case1 cs => simp
  | case2 cs hnot =>
      have hstart (others : List Char) : ¬ '.' :: others <+: cs := by
        rintro ⟨rest, rfl⟩
        exact hnot _ rfl
      simp [hstart]

theorem dropDot_of_not_leading (h : ¬ ['.'] <+: cs) : dropDot cs = cs := by
  fun_cases dropDot cs with
  | case1 cs => exact absurd ⟨cs, rfl⟩ h
  | case2 cs => rfl

/-- The dot at the start of a path belongs to no crowd unless there are two. -/
theorem exists_crowd_infix_dropDot_iff (h : ¬ ['.', '.'] <+: cs) :
    (∃ crowd, Crowded crowd ∧ crowd <:+: dropDot cs) ↔ ∃ crowd, Crowded crowd ∧ crowd <:+: cs := by
  fun_cases dropDot cs with
  | case1 cs =>
      have hgroup : group? ('.' :: cs) = none := rfl
      have hnone : ¬ ∃ crowd, Crowded crowd ∧ crowd <+: '.' :: cs := by
        rw [exists_crowd_prefix_cons_iff hgroup]
        rintro ⟨-, ⟨rest, rfl⟩ | ⟨_, _, -, rest, rfl⟩⟩
        · exact h ⟨_, rfl⟩
        · exact h ⟨_, rfl⟩
      rw [exists_crowd_infix_cons_iff, or_iff_right hnone]
  | case2 cs => rfl

/-! ## Normal forms -/

/-- **When a normal form is canonical.** -/
theorem isCanonical_normalize_iff (cs : List Char) : IsCanonical (normalize cs) ↔
    ¬ ['.', '.'] <+: cs ∧ ∀ crowd, Crowded crowd → ¬ crowd <:+: cs := by
  have hleading : ['.'] <+: normalize cs ↔ ['.', '.'] <+: cs := by
    rw [normalize_eq, dot_prefix_collapseDots_iff, dot_prefix_ungrouped_iff, dot_prefix_dropDot_iff]
  have hdouble (h : ¬ ['.', '.'] <+: cs) : ['.', '.'] <:+: normalize cs ↔
      ∃ crowd, Crowded crowd ∧ crowd <:+: cs := by
    rw [normalize_eq, double_infix_collapseDots_iff, triple_infix_ungrouped_iff,
      exists_crowd_infix_dropDot_iff h]
  constructor
  · rintro ⟨hnot, hapart⟩
    have hstart := mt hleading.mpr hnot
    exact ⟨hstart, fun crowd hcrowd hinfix => hapart ((hdouble hstart).mpr ⟨crowd, hcrowd, hinfix⟩)⟩
  · rintro ⟨hstart, hapart⟩
    refine ⟨mt hleading.mp hstart, fun hinfix => ?_⟩
    obtain ⟨crowd, hcrowd, hinfix⟩ := (hdouble hstart).mp hinfix
    exact hapart crowd hcrowd hinfix

theorem eq_of_pieces_eq_singleton {piece : List Char} (h : pieces 0 cs = [piece]) : piece = cs := by
  induction cs using induction_groups generalizing piece with
  | nil => exact (List.cons.inj h).1.symm
  | group key group rest hgroup _ =>
      rw [hgroup.pieces_append] at h
      cases h
  | char c cs hgroup ih =>
      obtain ⟨first, others, hpieces⟩ := List.exists_cons_of_ne_nil (pieces_ne_nil 0 cs)
      rw [pieces_cons_of_eq_none hgroup, hpieces] at h
      obtain ⟨rfl, rfl⟩ := List.cons.inj h
      rw [ih hpieces]

/-- A dot divides the groups of a text, of which there is one less than there are pieces. -/
theorem dividedBy_groups : Text.DividedBy '.' fun cs => (pieces 0 cs).tail.map fun _ => () := by
  refine ⟨rfl, fun before after => ?_⟩
  obtain ⟨front, last, first, back, hbefore, hafter, hwhole⟩ :=
    exists_pieces_append_dot (Nat.zero_le before.length) after
  rw [hbefore, hafter, hwhole]
  cases front with
  | nil => rfl
  | cons piece front => simp

/-- **A normal form has no groups.** -/
theorem pieces_normalize (cs : List Char) : pieces 0 (normalize cs) = [normalize cs] := by
  have hnone : (pieces 0 (normalize cs)).tail.map (fun _ => ()) = [] := by
    refine (find_normalize dividedBy_groups cs).trans (List.flatMap_eq_nil_iff.mpr ?_)
    intro piece hmem
    rw [pieces_of_mem_pieces hmem]
    rfl
  obtain ⟨piece, others, hpieces⟩ := List.exists_cons_of_ne_nil (pieces_ne_nil 0 (normalize cs))
  rw [hpieces, List.tail_cons, List.map_eq_nil_iff] at hnone
  rw [hnone] at hpieces
  rw [hpieces, eq_of_pieces_eq_singleton hpieces]

/-- A path without groups is normalised by dropping a dot and one pass over the others. -/
theorem normalize_of_pieces (h : pieces 0 cs = [cs]) :
    normalize cs = collapseDots (dropDot cs) := by
  have hdrop : pieces 0 (dropDot cs) = [dropDot cs] := by
    fun_cases dropDot cs with
    | case1 cs =>
        obtain ⟨piece, rest, hpieces, hdot⟩ := pieces_dot cs
        obtain ⟨hpiece, rfl⟩ := List.cons.inj (hdot.symm.trans h)
        rw [hpieces, (List.cons.inj hpiece).2]
    | case2 cs => exact h
  rw [normalize_eq, ungrouped, hdrop]
  cases dropDot cs <;> rfl

/-- **A path without groups is its own normal form** exactly if it is canonical; if it is not, its
normal form is shorter. -/
theorem normalize_eq_self_of_isCanonical (h : pieces 0 cs = [cs]) (hcanonical : IsCanonical cs) :
    normalize cs = cs := by
  rw [normalize_of_pieces h, dropDot_of_not_leading hcanonical.not_leading,
    collapseDots_of_not_double hcanonical.not_double]

theorem length_normalize_lt (h : pieces 0 cs = [cs]) (hnot : ¬ IsCanonical cs) :
    (normalize cs).length < cs.length := by
  rw [normalize_of_pieces h]
  have hpass := length_collapseDots_le (dropDot cs)
  by_cases hleading : ['.'] <+: cs
  · obtain ⟨rest, rfl⟩ := hleading
    exact Nat.lt_succ_of_le hpass
  · have hdouble : ['.', '.'] <:+: cs := by
      by_contra hapart
      exact hnot ⟨hleading, hapart⟩
    rw [dropDot_of_not_leading hleading]
    exact length_collapseDots_lt hdouble

theorem normalize_eq_self_iff (h : pieces 0 cs = [cs]) : normalize cs = cs ↔ IsCanonical cs := by
  refine ⟨fun heq => ?_, normalize_eq_self_of_isCanonical h⟩
  by_contra hnot
  exact Nat.lt_irrefl _ (heq ▸ length_normalize_lt h hnot)

/-- **Normalising again and again** ends with a canonical path. -/
theorem exists_isCanonical_iterate (h : pieces 0 cs = [cs]) :
    ∃ n, IsCanonical (normalize^[n] cs) := by
  induction hlength : cs.length using Nat.strong_induction_on generalizing cs with
  | _ length ih =>
      by_cases hcanonical : IsCanonical cs
      · exact ⟨0, hcanonical⟩
      · have hless := length_normalize_lt h hcanonical
        obtain ⟨n, hn⟩ := ih _ (hlength ▸ hless) (pieces_normalize cs) rfl
        exact ⟨n + 1, hn⟩

theorem keys_iterate_normalize (n : Nat) (cs : List Char) : keys (normalize^[n] cs) = keys cs := by
  induction n generalizing cs with
  | zero => rfl
  | succ n ih => rw [Function.iterate_succ_apply, ih, keys_normalize]

end Path

namespace Value

theorem normalizePath_text (path : String) :
    (text path).normalizePath = .ok (String.ofList (Path.normalize path.toList)) := rfl

/-- **When normalising makes a path canonical.** Every path has a normal form. It is canonical
exactly if the path does not start with two dots and no three dots come together in it, where the
ends of bracket groups count as dots. A normal form is normal once more exactly if it is canonical;
if it is not, normalising it again and again ends with a canonical path, which has the keys of the
path. -/
theorem normalizePath_canonical_iff (p : String) :
    ∃ q, (text p).normalizePath = .ok q ∧
      (Path.IsCanonical q.toList ↔ ¬ ['.', '.'] <+: p.toList ∧
        ∀ crowd, Path.Crowded crowd → ¬ crowd <:+: p.toList) ∧
      ((text q).normalizePath = .ok q ↔ Path.IsCanonical q.toList) ∧
      ∃ n, Path.IsCanonical (Path.normalize^[n] q.toList) ∧
        Path.keys (Path.normalize^[n] q.toList) = Path.keys p.toList := by
  refine ⟨String.ofList (Path.normalize p.toList), normalizePath_text p, ?_, ?_, ?_⟩
  · rw [String.toList_ofList]
    exact Path.isCanonical_normalize_iff p.toList
  · rw [normalizePath_text, String.toList_ofList, Except.ok.injEq, String.ofList_inj]
    exact Path.normalize_eq_self_iff (Path.pieces_normalize p.toList)
  · obtain ⟨n, hn⟩ := Path.exists_isCanonical_iterate (Path.pieces_normalize p.toList)
    rw [String.toList_ofList]
    exact ⟨n, hn, (Path.keys_iterate_normalize n _).trans (Path.keys_normalize p.toList)⟩

/-- A normal form need not be canonical, and then it is not normal itself. -/
theorem exists_normalizePath_not_canonical :
    ¬ ∀ p q : String, (text p).normalizePath = .ok q →
        Path.IsCanonical q.toList ∧ (text q).normalizePath = .ok q := by
  intro h
  have hcanonical := (h "a...b" "a..b" (by decide)).1
  exact absurd hcanonical (by decide)

end Value

end LooseData
