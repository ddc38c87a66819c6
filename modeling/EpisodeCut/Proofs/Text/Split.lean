/-!
# Splitting at a separator

The parts into which a text is split do not contain the separator (`not_mem_of_mem_splitOn`), and
what is put together from parts contains nothing but their characters and the separator
(`mem_intercalate`).
-/

set_option autoImplicit false

namespace EpisodeCut.Text

theorem not_mem_of_mem_splitOn {sep : Char} {xs part : List Char} (h : part ∈ xs.splitOn sep) :
    sep ∉ part := by
  -- A character either begins a new part or goes in front of the first one.
  induction xs generalizing part with
  | nil =>
    rw [List.splitOn_nil, List.mem_singleton] at h
    rw [h]
    exact List.not_mem_nil
  | cons x rest ih =>
    rw [List.splitOn_cons_eq_if_modifyHead] at h
    split at h
    · rcases List.mem_cons.1 h with rfl | h
      · exact List.not_mem_nil
      · exact ih h
    · next hx =>
      cases hrest : rest.splitOn sep with
      | nil => exact absurd hrest (List.splitOn_ne_nil _ _)
      | cons first others =>
        rw [hrest, List.modifyHead_cons] at h
        rcases List.mem_cons.1 h with rfl | h
        · rw [List.mem_cons, not_or]
          refine ⟨?_, ih (by simp [hrest])⟩
          rintro rfl
          simp at hx
        · apply ih
          rw [hrest]
          exact List.mem_cons_of_mem first h

/-- A character of an intercalation stands in a part or is the separator. -/
theorem mem_intercalate {c sep : Char} {parts : List (List Char)}
    (h : c ∈ [sep].intercalate parts) : c = sep ∨ ∃ part ∈ parts, c ∈ part := by
  induction parts with
  | nil => simp at h
  | cons part parts ih =>
    -- The separator stands before every part but the first, so a single part is a case apart.
    cases parts with
    | nil => exact Or.inr ⟨part, by simp, by simpa using h⟩
    | cons next parts =>
      rw [List.intercalate_cons_cons, List.append_assoc] at h
      rcases List.mem_append.1 h with h | h
      · exact Or.inr ⟨part, by simp, h⟩
      · rcases List.mem_append.1 h with h | h
        · exact Or.inl (List.mem_singleton.1 h)
        · rcases ih h with h | ⟨found, hfound, hc⟩
          · exact Or.inl h
          · exact Or.inr ⟨found, List.mem_cons_of_mem _ hfound, hc⟩

theorem mem_intercalate_of_mem {c sep : Char} {part : List Char} {parts : List (List Char)}
    (hpart : part ∈ parts) (hc : c ∈ part) : c ∈ [sep].intercalate parts := by
  induction parts with
  | nil => cases hpart
  | cons first others ih =>
    cases others with
    | nil =>
      rw [List.mem_singleton.1 hpart] at hc
      simpa using hc
    | cons next others =>
      rw [List.intercalate_cons_cons]
      rcases List.mem_cons.1 hpart with rfl | hpart
      · exact List.mem_append_left _ (List.mem_append_left _ hc)
      · exact List.mem_append_right _ (ih hpart)

/-- The characters of a part are characters of the text that was split. -/
theorem mem_of_mem_splitOn {c sep : Char} {xs part : List Char} (hpart : part ∈ xs.splitOn sep)
    (hc : c ∈ part) : c ∈ xs := by
  have hxs : [sep].intercalate (xs.splitOn sep) = xs := List.intercalate_splitOn sep
  rw [← hxs]
  exact mem_intercalate_of_mem hpart hc

end EpisodeCut.Text
