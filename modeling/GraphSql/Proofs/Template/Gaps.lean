import GraphSql.Proofs.Template.Substitution

/-!
# Gaps — the blanks between two neighbouring characters

The characters of a text that are not blank have gaps between them, which may be empty:

* `Between` — the gap behind the `i`-th element that is not blank, in a list of any elements;
* `Between.unique` — it is the only one;
* `Between.map`, `Between.exists_of_map`, `Between.filter` — the gaps of another list;
* `Parted` — there is a blank in the gap;
* `Between.normalise` — normalising shortens the runs of spaces in a gap, and does not empty it.
-/

namespace GraphSql
namespace Text

section

variable {α β : Type} {blank : α → Bool} {i : Nat} {gap xs : List α}

/-- The gap is all there is between the `i`-th element that is not blank and the next one. -/
def Between (blank : α → Bool) (i : Nat) (gap xs : List α) : Prop :=
  ∃ front c d back, xs = front ++ c :: (gap ++ d :: back) ∧
    (front.filter fun x => !blank x).length = i ∧ blank c = false ∧ blank d = false ∧
    ∀ b ∈ gap, blank b = true

/-- With as many elements that are not blank in front, the same is behind. -/
theorem behind_unique {front front' back back' : List α} {c c' : α}
    (h : front ++ c :: back = front' ++ c' :: back')
    (hcount : (front.filter fun x => !blank x).length = (front'.filter fun x => !blank x).length)
    (hc : blank c = false) (hc' : blank c' = false) : back = back' := by
  induction front generalizing front' with
  | nil =>
      cases front' with
      | nil => exact (List.cons.inj h).2
      | cons x front' =>
          rcases List.cons.inj h with ⟨rfl, _⟩
          simp [hc] at hcount
  | cons x front ih =>
      cases front' with
      | nil =>
          rcases List.cons.inj h with ⟨rfl, _⟩
          simp [hc'] at hcount
      | cons y front' =>
          rcases List.cons.inj h with ⟨rfl, hrest⟩
          refine ih hrest ?_
          cases hx : blank x <;> simpa [hx] using hcount

namespace Between

theorem unique {gap' : List α} (h : Between blank i gap xs) (h' : Between blank i gap' xs) :
    gap = gap' := by
  rcases h with ⟨front, c, d, back, rfl, hcount, hc, hd, hgap⟩
  rcases h' with ⟨front', c', d', back', hsplit, hcount', hc', hd', hgap'⟩
  have hbehind := behind_unique hsplit (hcount.trans hcount'.symm) hc hc'
  -- A gap is what there is of blanks from its front on.
  have hrun : ∀ {g : List α} {e : α} (es : List α), (∀ b ∈ g, blank b = true) → blank e = false →
      (g ++ e :: es).takeWhile blank = g := by
    intro g e es hg he
    rw [List.takeWhile_append_of_pos hg, List.takeWhile_cons_of_neg (by simp [he]), List.append_nil]
  rw [← hrun back hgap hd, hbehind, hrun back' hgap' hd']

theorem map {f : β → α} {gap xs : List β} (h : Between (fun x => blank (f x)) i gap xs) :
    Between blank i (gap.map f) (xs.map f) := by
  rcases h with ⟨front, c, d, back, rfl, hcount, hc, hd, hgap⟩
  refine ⟨front.map f, f c, f d, back.map f, by simp, ?_, hc, hd, ?_⟩
  · rw [List.filter_map, List.length_map]
    exact hcount
  · simpa using hgap

theorem exists_of_map {f : β → α} {xs : List β} (h : Between blank i gap (xs.map f)) :
    ∃ inner, gap = inner.map f ∧ Between (fun x => blank (f x)) i inner xs := by
  rcases h with ⟨front, c, d, back, hsplit, hcount, hc, hd, hgap⟩
  rcases List.map_eq_append_iff.1 hsplit with ⟨front, behind, rfl, rfl, hbehind⟩
  rcases List.map_eq_cons_iff.1 hbehind with ⟨c, after, rfl, rfl, hafter⟩
  rcases List.map_eq_append_iff.1 hafter with ⟨inner, last, rfl, rfl, hlast⟩
  rcases List.map_eq_cons_iff.1 hlast with ⟨d, back, rfl, rfl, rfl⟩
  refine ⟨inner, rfl, front, c, d, back, rfl, ?_, hc, hd, by simpa using hgap⟩
  rwa [List.filter_map, List.length_map] at hcount

/-- When nothing but blanks is dropped, what is left of a gap is the gap of what is left. -/
theorem filter {keep : α → Bool} (hkeep : ∀ x ∈ xs, blank x = false → keep x = true)
    (h : Between blank i gap xs) : Between blank i (gap.filter keep) (xs.filter keep) := by
  rcases h with ⟨front, c, d, back, rfl, hcount, hc, hd, hgap⟩
  refine ⟨front.filter keep, c, d, back.filter keep, ?_, ?_, hc, hd, ?_⟩
  · simp [hkeep c (by simp) hc, hkeep d (by simp) hd]
  · rw [← hcount, List.filter_filter]
    refine congrArg List.length (List.filter_congr ?_)
    intro x hx
    cases hblank : blank x with
    | true => rfl
    | false => simp [hkeep x (by simp [hx]) hblank]
  · intro b hb
    exact hgap b (List.mem_filter.1 hb).1

end Between

end

/-! ## Normalised texts -/

variable {i : Nat} {gap cs : List Char}

/-- There is a blank between the `i`-th character that is not blank and the next one. -/
def Parted (i : Nat) (cs : List Char) : Prop :=
  ∃ gap, Between isBlank i gap cs ∧ gap ≠ []

theorem Between.parted_iff (h : Between isBlank i gap cs) : Parted i cs ↔ gap ≠ [] := by
  constructor
  · rintro ⟨other, hother, hne⟩
    rwa [h.unique hother]
  · intro hne
    exact ⟨gap, h, hne⟩

theorem collapse_eq_nil_iff {cs : List Char} : collapse cs = [] ↔ cs = [] := by
  rw [← List.head?_eq_none_iff, head?_collapse, List.head?_eq_none_iff]

theorem Between.normalise (h : Between isBlank i gap cs) :
    Between isBlank i (collapse gap) (normalise cs) := by
  rcases h with ⟨front, c, d, back, rfl, hcount, hc, hd, hgap⟩
  -- The gap with its two neighbours is framed, so normalising treats it as if it stood alone.
  have hframed : Framed (c :: (gap ++ [d])) := ⟨⟨c, rfl, hc⟩, ⟨d, by simp [List.getLast?_cons], hd⟩⟩
  have hparts : front ++ c :: (gap ++ d :: back) = front ++ (c :: (gap ++ [d]) ++ back) := by simp
  have hmiddle : collapse (c :: (gap ++ [d])) = c :: (collapse gap ++ [d]) := by
    have hnotc : ¬(c = ' ' ∧ (gap ++ [d]).head? = some ' ') :=
      fun hspace => not_blank_ne_space hc hspace.1
    have hnotd : ¬(gap.getLast? = some ' ' ∧ [d].head? = some ' ') :=
      fun hspace => not_blank_ne_space hd (Option.some.inj hspace.2)
    rw [collapse_cons_kept hnotc, collapse_append hnotd]
    simp [collapse]
  refine ⟨collapse (trimStart front), c, d, collapse (trimEnd back), ?_, ?_, hc, hd, ?_⟩
  · rw [hparts, Text.normalise, trim_framed hframed, collapse_framed hframed, hmiddle]
    simp
  · have hink : ink (collapse (trimStart front)) = ink front := by
      rw [ink_collapse, ink_trimStart]
    exact (congrArg List.length hink).trans hcount
  · intro b hb
    have hink : ink (collapse gap) = [] := by
      rw [ink_collapse]
      simpa [ink, List.filter_eq_nil_iff] using hgap
    simpa using List.filter_eq_nil_iff.1 hink b hb

theorem Between.parted_normalise_iff (h : Between isBlank i gap cs) :
    Parted i (Text.normalise cs) ↔ gap ≠ [] := by
  rw [h.normalise.parted_iff, ne_eq, collapse_eq_nil_iff]

end Text
end GraphSql
