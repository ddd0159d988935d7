import InterestDesk.Proofs.Decimal.Text
/-!
# Amount — the form of a printed number

`Amount` is the form itself: a sign or none, one to three digits, groups of three digits behind separators, and the
decimals behind a point.  Every finite double is printed in this form (`exists_amount`), so no word such as `inf` and
no character but these is ever in it.
-/
namespace InterestDesk
namespace Decimal

/-- The parts of a printed number with `places` decimals. -/
structure Amount (places : Nat) where
  negative : Bool
  lead : List Char
  groups : List (List Char)
  decimals : List Char
  lead_pos : 1 ≤ lead.length
  lead_le : lead.length ≤ 3
  length_group : ∀ group ∈ groups, group.length = 3
  length_decimals : decimals.length = places
  isDigit : ∀ c ∈ lead ++ groups.flatten ++ decimals, c.isDigit = true

namespace Amount

/-- The digits in front of the point. -/
def whole {places : Nat} (a : Amount places) : List Char :=
  a.lead ++ a.groups.flatten

/-- The parts in a row; the point stands only before decimals. -/
def chars {places : Nat} (a : Amount places) (separator : Char) : List Char :=
  (if a.negative then ['-'] else []) ++ (a.lead ++ a.groups.flatMap (separator :: ·))
    ++ (if places = 0 then [] else '.' :: a.decimals)

def text {places : Nat} (a : Amount places) (separator : Char) : String :=
  String.ofList (a.chars separator)

theorem mem_chars {places : Nat} {a : Amount places} {separator c : Char} (h : c ∈ a.chars separator) :
    c = '-' ∨ c = separator ∨ c = '.' ∨ c.isDigit = true := by
  have hdigit := a.isDigit c
  simp only [List.mem_append] at hdigit
  unfold chars at h
  rw [List.mem_append, List.mem_append, List.mem_append] at h
  rcases h with (hsign | hlead | hgroups) | hdecimals
  · split at hsign
    · exact .inl (List.mem_singleton.1 hsign)
    · cases hsign
  · exact .inr (.inr (.inr (hdigit (.inl (.inl hlead)))))
  · obtain ⟨group, hgroup, hc⟩ := List.mem_flatMap.1 hgroups
    rcases List.mem_cons.1 hc with hc | hc
    · exact .inr (.inl hc)
    · exact .inr (.inr (.inr (hdigit (.inl (.inr (List.mem_flatten.2 ⟨group, hgroup, hc⟩))))))
  · split at hdecimals
    · cases hdecimals
    · rcases List.mem_cons.1 hdecimals with hc | hc
      · exact .inr (.inr (.inl hc))
      · exact .inr (.inr (.inr (hdigit (.inr hc))))

end Amount

theorem length_flatten_of_three {groups : List (List Char)} (h : ∀ group ∈ groups, group.length = 3) :
    groups.flatten.length = groups.length * 3 := by
  rw [List.length_flatten, List.map_congr_left h, List.map_const', List.sum_replicate_nat]

/-- **Grouped digits are one to three digits, then groups of three behind separators.** -/
theorem exists_groups (separator : Char) {s : List Char} (hne : s ≠ []) :
    ∃ (lead : List Char) (groups : List (List Char)), grouped separator s = lead ++ groups.flatMap (separator :: ·) ∧
      lead ++ groups.flatten = s ∧ 1 ≤ lead.length ∧ lead.length ≤ 3 ∧ ∀ group ∈ groups, group.length = 3 := by
  induction s with
  | nil => exact absurd rfl hne
  | cons c rest ih =>
    by_cases hrest : rest = []
    · subst hrest
      exact ⟨[c], [], rfl, rfl, Nat.le_refl 1, Nat.le_add_right 1 2, by simp⟩
    · obtain ⟨lead, groups, htext, hall, hpos, hle, hgroups⟩ := ih hrest
      have hlength : lead.length + groups.length * 3 = rest.length := by
        rw [← hall, List.length_append, length_flatten_of_three hgroups]
      have hsome : (!rest.isEmpty) = true := by simpa using hrest
      unfold grouped
      rw [hsome, Bool.and_true]
      split
      -- Whole groups follow, so the lead of the rest is one of them and `c` leads alone.
      · rename_i hthree
        rw [decide_eq_true_iff] at hthree
        refine ⟨[c], lead :: groups, by rw [htext]; simp, by rw [← hall]; simp, Nat.le_refl 1, Nat.le_add_right 1 2, ?_⟩
        exact List.forall_mem_cons.2 ⟨by omega, hgroups⟩
      · rename_i hthree
        rw [decide_eq_true_iff] at hthree
        refine ⟨c :: lead, groups, by rw [htext]; rfl, by rw [← hall]; rfl, ?_, ?_, hgroups⟩
        · exact Nat.le_add_left 1 _
        · rw [List.length_cons]
          omega

/-- The parts of a finite double that is printed are those of its rounded decimal. -/
theorem exists_amount_finite (negative : Bool) (m : Binary64.Magnitude) (separator : Char) (places : Nat) :
    ∃ a : Amount places, formatGrouped (.finite negative m) separator places = a.text separator ∧
      a.negative = (negative && scaled m places != 0) ∧ a.whole = digits (scaled m places / tenTo places) ∧
      a.decimals = fractionDigits places (scaled m places) := by
  obtain ⟨lead, groups, htext, hall, hpos, hle, hgroups⟩ :=
    exists_groups separator (s := digits (scaled m places / tenTo places)) Nat.toDigits_ne_nil
  refine ⟨⟨negative && scaled m places != 0, lead, groups, fractionDigits places (scaled m places), hpos, hle,
    hgroups, length_fractionDigits places _, ?_⟩, ?_, rfl, hall, rfl⟩
  · intro c hc
    rw [hall] at hc
    rcases List.mem_append.1 hc with hc | hc
    · exact isDigit_of_mem_digits hc
    · exact isDigit_of_mem_fractionDigits hc
  · unfold formatGrouped Amount.text Amount.chars
    dsimp only
    rw [htext, fraction_eq]

/-- **A finite double is printed as an amount.** -/
theorem exists_amount {x : Binary64} (hx : x.isFinite = true) (separator : Char) (places : Nat) :
    ∃ a : Amount places, formatGrouped x separator places = a.text separator := by
  cases x with
  | nan => cases hx
  | infinity negative => cases hx
  | finite negative m =>
    obtain ⟨a, htext, -⟩ := exists_amount_finite negative m separator places
    exact ⟨a, htext⟩

end Decimal
end InterestDesk
