import InterestDesk.Text.Cut
/-!
# Cut — where a list is cut

A list is cut in front of the first element that fails a test, or at the first occurrence of a pattern.  That is the one
meant if the pattern's first element does not stand before it, or if the pattern does not and starts as it never goes
on.
-/
namespace InterestDesk
namespace Text

variable {α : Type}

/-- A list is cut in front of the first element that fails the test. -/
theorem span_append {p : α → Bool} {first rest : List α} (hfirst : ∀ a ∈ first, p a = true)
    (hrest : ∀ a ∈ rest.head?, p a = false) :
    (first ++ rest).takeWhile p = first ∧ (first ++ rest).dropWhile p = rest := by
  have hstop : rest.takeWhile p = [] ∧ rest.dropWhile p = rest := by
    cases rest with
    | nil => exact ⟨rfl, rfl⟩
    | cons a rest =>
      have ha := hrest a rfl
      exact ⟨List.takeWhile_cons_of_neg (by simp [ha]), List.dropWhile_cons_of_neg (by simp [ha])⟩
  rw [List.takeWhile_append_of_pos hfirst, List.dropWhile_append_of_pos hfirst, hstop.1, hstop.2, List.append_nil]
  exact ⟨rfl, rfl⟩

variable [BEq α] [LawfulBEq α]

/-- A list is cut where the pattern stands, unless it also stands earlier. -/
theorem cutAt?_append {pattern first rest : List α}
    (h : ∀ t, t ≠ [] → t <:+ first → ¬ pattern <+: t ++ (pattern ++ rest)) :
    cutAt? pattern (first ++ (pattern ++ rest)) = some (first, rest) := by
  have honto : ∀ before,
      cutOnto? pattern before (first ++ (pattern ++ rest)) = some (before.reverse ++ first, rest) := by
    induction first with
    | nil =>
      intro before
      have hhere : pattern.isPrefixOf (pattern ++ rest) = true := List.isPrefixOf_iff_prefix.2 (List.prefix_append _ _)
      rw [List.nil_append, List.append_nil]
      cases hs : pattern ++ rest with
      | nil =>
        obtain ⟨rfl, rfl⟩ := List.append_eq_nil_iff.1 hs
        rfl
      | cons a s =>
        rw [hs] at hhere
        unfold cutOnto?
        rw [if_pos hhere, ← hs, List.drop_left]
    | cons a first ih =>
      intro before
      have hearly : ¬ pattern.isPrefixOf (a :: (first ++ (pattern ++ rest))) = true := fun hp =>
        h _ (List.cons_ne_nil a first) (List.suffix_refl _) (List.isPrefixOf_iff_prefix.1 hp)
      rw [List.cons_append]
      unfold cutOnto?
      rw [if_neg hearly, ih fun t hne hsuffix => h t hne (hsuffix.trans (List.suffix_cons a first)), List.reverse_cons,
        List.append_assoc]
      rfl
  exact honto []

/-- A list is cut at a pattern whose first element does not stand before it. -/
theorem cutAt?_of_not_mem {a : α} {p first rest : List α} (h : a ∉ first) :
    cutAt? (a :: p) (first ++ (a :: p ++ rest)) = some (first, rest) := by
  refine cutAt?_append fun t hne hsuffix hprefix => ?_
  cases t with
  | nil => exact hne rfl
  | cons b t => exact h (hsuffix.mem (by rw [(List.cons_prefix_cons.1 hprefix).1]; exact List.mem_cons_self))

/-- A list is cut at a pattern that does not stand in what is before it, if the pattern starts as it never goes on. -/
theorem cutAt?_of_not_infix {a : α} {p first rest : List α} (ha : a ∉ p) (h : ¬ (a :: p) <:+: first) :
    cutAt? (a :: p) (first ++ (a :: p ++ rest)) = some (first, rest) := by
  refine cutAt?_append fun t hne hsuffix hprefix => ?_
  rcases Nat.lt_or_ge t.length (a :: p).length with hlt | hge
  -- An occurrence that ends in the pattern itself would have its first element once more.
  · obtain ⟨u, hu⟩ := List.prefix_of_prefix_length_le (List.prefix_append t _) hprefix (Nat.le_of_lt hlt)
    rw [← hu, List.prefix_append_right_inj, hu] at hprefix
    cases t with
    | nil => exact hne rfl
    | cons b t =>
      cases u with
      | nil =>
        rw [List.append_nil] at hu
        rw [hu] at hlt
        exact Nat.lt_irrefl _ hlt
      | cons c u =>
        obtain ⟨-, hp⟩ := List.cons.inj hu
        refine ha ?_
        rw [← hp, (List.cons_prefix_cons.1 hprefix).1]
        exact List.mem_append_right t List.mem_cons_self
  · have hinner := List.prefix_of_prefix_length_le hprefix (List.prefix_append t _) hge
    exact h (hinner.isInfix.trans hsuffix.isInfix)

end Text
end InterestDesk
