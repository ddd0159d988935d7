/-!
# Cut — the first occurrence of a pattern

`cutAt?` splits a list at the first place where a pattern stands: nothing but the pattern is lost.  It walks the list
once and keeps what it has passed in reverse, so long lists need no stack.
-/
namespace InterestDesk
namespace Text

variable {α : Type} [BEq α]

/-- `cutAt?` on the rest of a list, with what stands before it in reverse. -/
def cutOnto? (pattern before : List α) : List α → Option (List α × List α)
  | [] => if pattern.isEmpty then some (before.reverse, []) else none
  | a :: rest =>
    if pattern.isPrefixOf (a :: rest) then some (before.reverse, (a :: rest).drop pattern.length)
    else cutOnto? pattern (a :: before) rest

/-- What stands before the first occurrence of the pattern, and what follows it. -/
def cutAt? (pattern s : List α) : Option (List α × List α) :=
  cutOnto? pattern [] s

theorem append_eq_of_cutOnto? [LawfulBEq α] {pattern : List α} :
    ∀ {s before first rest : List α}, cutOnto? pattern before s = some (first, rest) →
      before.reverse ++ s = first ++ pattern ++ rest
  | [], before, first, rest, h => by
    unfold cutOnto? at h
    split at h
    · rename_i hp
      cases h
      simp [List.isEmpty_iff.1 hp]
    · cases h
  | a :: s, before, first, rest, h => by
    unfold cutOnto? at h
    split at h
    · rename_i hp
      cases h
      rw [List.append_assoc]
      exact congrArg _ (List.prefix_iff_eq_append.1 (List.isPrefixOf_iff_prefix.1 hp)).symm
    · rw [← append_eq_of_cutOnto? h]
      simp

/-- The two parts and the pattern between them make up the list. -/
theorem append_eq_of_cutAt? [LawfulBEq α] {pattern s first rest : List α} (h : cutAt? pattern s = some (first, rest)) :
    s = first ++ pattern ++ rest :=
  append_eq_of_cutOnto? h

end Text
end InterestDesk
