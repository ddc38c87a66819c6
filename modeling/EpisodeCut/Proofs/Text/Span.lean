import EpisodeCut.Text.Blank

/-!
# Spans

A reader takes the longest head of a text whose characters lie in a class. The lemmas here say what
that head is when it is known: the part `xs` of `xs ++ ys`, if all of `xs` is in the class and `ys`
does not begin in it (`takeWhile_append_eq`, `dropWhile_append_eq`). Likewise for what is left when
a class of characters is dropped from the end of a text (`dropRightWhile_append_eq`).
-/

set_option autoImplicit false

namespace EpisodeCut.Text

variable {α : Type}

theorem takeWhile_eq_nil_of_head? {p : α → Bool} {xs : List α}
    (stop : ∀ x ∈ xs.head?, p x = false) : xs.takeWhile p = [] := by
  cases xs with
  | nil => rfl
  | cons x rest => rw [List.takeWhile_cons_of_neg (by simp [stop x rfl])]

theorem dropWhile_eq_self_of_head? {p : α → Bool} {xs : List α}
    (stop : ∀ x ∈ xs.head?, p x = false) : xs.dropWhile p = xs := by
  cases xs with
  | nil => rfl
  | cons x rest => rw [List.dropWhile_cons_of_neg (by simp [stop x rfl])]

theorem takeWhile_append_eq {p : α → Bool} {xs ys : List α} (inside : ∀ x ∈ xs, p x = true)
    (stop : ∀ y ∈ ys.head?, p y = false) : (xs ++ ys).takeWhile p = xs := by
  rw [List.takeWhile_append_of_pos inside, takeWhile_eq_nil_of_head? stop, List.append_nil]

theorem dropWhile_append_eq {p : α → Bool} {xs ys : List α} (inside : ∀ x ∈ xs, p x = true)
    (stop : ∀ y ∈ ys.head?, p y = false) : (xs ++ ys).dropWhile p = ys := by
  rw [List.dropWhile_append_of_pos inside, dropWhile_eq_self_of_head? stop]

/-- A head that ends at a character that does not occur in it. -/
theorem takeWhile_ne_append_cons [BEq α] [LawfulBEq α] {c : α} {xs : List α} (absent : c ∉ xs)
    (ys : List α) : (xs ++ c :: ys).takeWhile (· != c) = xs := by
  refine takeWhile_append_eq (fun x hx => ?_) (fun y hy => ?_)
  · exact bne_iff_ne.2 fun h => absent (h ▸ hx)
  · cases hy
    simp

theorem dropWhile_ne_append_cons [BEq α] [LawfulBEq α] {c : α} {xs : List α} (absent : c ∉ xs)
    (ys : List α) : (xs ++ c :: ys).dropWhile (· != c) = c :: ys := by
  refine dropWhile_append_eq (fun x hx => ?_) (fun y hy => ?_)
  · exact bne_iff_ne.2 fun h => absent (h ▸ hx)
  · cases hy
    simp

theorem takeWhile_ne_eq_self [BEq α] [LawfulBEq α] {c : α} {xs : List α} (absent : c ∉ xs) :
    xs.takeWhile (· != c) = xs := by
  have h : (xs ++ []).takeWhile (· != c) = xs :=
    takeWhile_append_eq (fun x hx => bne_iff_ne.2 fun h => absent (h ▸ hx)) (by simp)
  rwa [List.append_nil] at h

theorem dropWhile_ne_eq_nil [BEq α] [LawfulBEq α] {c : α} {xs : List α} (absent : c ∉ xs) :
    xs.dropWhile (· != c) = [] := by
  have h : (xs ++ []).dropWhile (· != c) = [] :=
    dropWhile_append_eq (fun x hx => bne_iff_ne.2 fun h => absent (h ▸ hx)) (by simp)
  rwa [List.append_nil] at h

theorem dropRightWhile_append_eq {p : Char → Bool} {xs ys : List Char}
    (outside : ∀ c ∈ xs.getLast?, p c = false) (dropped : ∀ c ∈ ys, p c = true) :
    dropRightWhile p (xs ++ ys) = xs := by
  rw [dropRightWhile, List.reverse_append, dropWhile_append_eq, List.reverse_reverse]
  · exact fun c hc => dropped c (List.mem_reverse.1 hc)
  · rw [List.head?_reverse]
    exact outside

/-- Text is what is left of it without a class of characters at its end, and those characters. -/
theorem exists_eq_dropRightWhile_append (p : Char → Bool) (s : List Char) :
    ∃ tail, s = dropRightWhile p s ++ tail ∧ ∀ c ∈ tail, p c = true := by
  refine ⟨(s.reverse.takeWhile p).reverse, ?_, ?_⟩
  · rw [dropRightWhile, ← List.reverse_append, List.takeWhile_append_dropWhile,
      List.reverse_reverse]
  · intro c hc
    exact List.all_eq_true.1 List.all_takeWhile c (List.mem_reverse.1 hc)

theorem mem_of_mem_dropRightWhile {p : Char → Bool} {s : List Char} {c : Char}
    (h : c ∈ dropRightWhile p s) : c ∈ s := by
  obtain ⟨tail, hs, -⟩ := exists_eq_dropRightWhile_append p s
  rw [hs]
  exact List.mem_append_left tail h

/-- A character outside the class stays, and so does all that stands before it. -/
theorem dropRightWhile_cons {p : Char → Bool} {c : Char} (outside : p c = false) (s : List Char) :
    dropRightWhile p (c :: s) = c :: dropRightWhile p s := by
  rw [dropRightWhile, List.reverse_cons, List.dropWhile_append, dropRightWhile]
  split
  · next hempty => rw [List.isEmpty_iff.1 hempty, List.dropWhile_cons_of_neg (by simp [outside])]; rfl
  · rw [List.reverse_append]; rfl

/-- What is left does not end in the class. -/
theorem getLast?_dropRightWhile {p : Char → Bool} {s : List Char} :
    ∀ c ∈ (dropRightWhile p s).getLast?, p c = false := by
  intro c hc
  have hhead := List.head?_dropWhile_not p s.reverse
  rw [dropRightWhile, List.getLast?_reverse] at hc
  rw [hc] at hhead
  exact hhead

/-- Text that has no white space at its ends is trimmed to itself. -/
theorem trim_eq_self {s : List Char} (solid : ∀ c ∈ s, isWhiteSpace c = false) : trim s = s := by
  rw [trim, dropWhile_eq_self_of_head? fun c hc => solid c (List.mem_of_mem_head? hc), trimRight]
  have hkept : dropRightWhile isWhiteSpace (s ++ []) = s :=
    dropRightWhile_append_eq (fun c hc => solid c (List.mem_of_getLast? hc)) (by simp)
  rwa [List.append_nil] at hkept

theorem trim_infix (s : List Char) : trim s <:+: s := by
  obtain ⟨tail, htail, -⟩ := exists_eq_dropRightWhile_append isWhiteSpace (s.dropWhile isWhiteSpace)
  exact ⟨s.takeWhile isWhiteSpace, tail, by
    rw [trim, trimRight, List.append_assoc, ← htail, List.takeWhile_append_dropWhile]⟩

end EpisodeCut.Text
