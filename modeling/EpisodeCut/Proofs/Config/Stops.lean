import EpisodeCut.Config.Parser

/-!
# Where a refusal stops

A reader that refuses a text stops within it: what is left from the point of the fault is a suffix of
the text (`readGroups_stop`). So the point that is shown to the author lies in the text.
-/

set_option autoImplicit false

namespace EpisodeCut.Config

/-- The point at which a reader of `s` refuses it, if it does, lies in `s`. -/
def StopsIn {α : Type} (s : List Char) (result : Except Stop α) : Prop :=
  ∀ stop, result = .error stop → stop.rest <:+ s

section StopsIn

variable {α β : Type} {s t : List Char}

theorem stopsIn_ok (a : α) : StopsIn s (.ok a : Except Stop α) := by
  intro stop h
  cases h

theorem stopsIn_error {fault : Fault} {rest : List Char} (h : rest <:+ s) :
    StopsIn s (.error ⟨fault, rest⟩ : Except Stop α) := by
  rintro stop ⟨⟩
  exact h

/-- What is read later is within what is left. -/
theorem StopsIn.mono {result : Except Stop α} (h : StopsIn t result) (within : t <:+ s) :
    StopsIn s result :=
  fun stop hstop => (h stop hstop).trans within

theorem StopsIn.map {result : Except Stop α} (h : StopsIn s result) (f : α → β) :
    StopsIn s (result.map f) := by
  cases result with
  | error stop => exact fun _ hstop => by cases hstop; exact h stop rfl
  | ok a => exact stopsIn_ok (f a)

/-- A reader stops at its first part, or the second part does in what the first one left. -/
theorem StopsIn.bind {result : Except Stop α} {next : α → Except Stop β} (h : StopsIn s result)
    (hnext : ∀ a, result = .ok a → StopsIn s (next a)) : StopsIn s (result >>= next) := by
  cases result with
  | error stop => exact fun _ hstop => by cases hstop; exact h stop rfl
  | ok a => exact hnext a rfl

end StopsIn

/-! ## Inputs -/

theorem suffix_of_eat? {c : Char} {s rest : List Char} (h : eat? c s = some rest) : rest <:+ s :=
  (List.suffix_cons c rest).trans (cons_suffix_of_eat? h)

theorem suffix_of_expect {c : Char} {s rest : List Char} (h : expect c s = .ok rest) :
    rest <:+ s :=
  suffix_of_eat? (eat?_of_expect h)

theorem expect_stop (c : Char) (s : List Char) : StopsIn s (expect c s) := by
  rw [expect]
  split
  · exact stopsIn_ok _
  · exact stopsIn_error (skipBlank_suffix s)

theorem readKind_stop (s : List Char) : StopsIn s (readKind s) := by
  simp only [readKind]
  split
  · exact stopsIn_ok _
  · split
    · exact stopsIn_error (skipBlank_suffix s)
    · exact stopsIn_error (skipBlank_suffix s)

theorem readIndex_stop (kind : MediaKind) (s : List Char) : StopsIn s (readIndex kind s) := by
  simp only [readIndex]
  split
  · exact stopsIn_ok _
  · split
    · exact stopsIn_error (List.suffix_refl s)
    · split
      · exact stopsIn_ok _
      · exact stopsIn_error (List.suffix_refl s)

theorem readIndexField_stop (kind : MediaKind) (s : List Char) :
    StopsIn s (readIndexField kind s) := by
  simp only [readIndexField]
  split
  · exact stopsIn_ok _
  · next rest hcolon =>
    have hrest : skipBlank rest <:+ s :=
      (skipBlank_suffix rest).trans (suffix_of_eat? hcolon)
    split
    · exact ((readIndex_stop kind _).mono hrest).map _
    · exact stopsIn_ok _

theorem readInput_stop (s : List Char) : StopsIn s (readInput s) := by
  rw [readInput]
  refine (readKind_stop s).bind ?_
  rintro ⟨kind, afterKind⟩ hkind
  have hafter : afterKind <:+ s := readKind_suffix hkind
  simp only
  split
  · exact stopsIn_ok _
  · next afterColon hcolon =>
    have hsource : (readSource kind afterColon).2 <:+ s :=
      (readSource_suffix kind afterColon).trans ((suffix_of_eat? hcolon).trans hafter)
    exact ((readIndexField_stop kind _).mono hsource).bind fun _ _ => stopsIn_ok _

theorem readInputs_stop (s : List Char) : StopsIn s (readInputs s) := by
  fun_induction readInputs s with
  | case1 s stop hfirst =>
    rintro _ ⟨⟩
    exact readInput_stop s stop hfirst
  | case2 => exact stopsIn_ok _
  | case3 s first rest hfirst more hmore hlt stop hothers ih =>
    rintro _ ⟨⟩
    exact (ih stop hothers).trans ((suffix_of_eat? hmore).trans (readInput_suffix hfirst))
  | case4 => exact stopsIn_ok _

/-! ## Times -/

/-- A fault in a field is reported where the timestamp begins, or at a later point of it. -/
theorem readClockFields_stop {start s : List Char} (within : s <:+ start) (clock : ClockTime)
    (room : Nat) : StopsIn start (readClockFields start clock room s) := by
  induction room generalizing clock s with
  | zero =>
    rw [readClockFields]
    simp only
    split
    · split
      · exact stopsIn_error ((List.dropWhile_suffix _).trans within)
      · exact stopsIn_ok _
    · exact stopsIn_error (List.suffix_refl start)
  | succ room ih =>
    rw [readClockFields]
    simp only
    split
    · split
      · exact ih ((List.drop_suffix 1 _).trans ((List.dropWhile_suffix _).trans within)) _
      · exact stopsIn_ok _
    · exact stopsIn_error (List.suffix_refl start)

theorem readFraction_stop (clock : ClockTime) (s : List Char) :
    StopsIn s (readFraction clock s) := by
  simp only [readFraction]
  split
  · split
    · exact stopsIn_error (List.drop_suffix 1 s)
    · exact stopsIn_ok _
  · exact stopsIn_ok _

theorem readTimestamp_stop (s : List Char) : StopsIn s (readTimestamp s) := by
  rw [readTimestamp]
  refine (readClockFields_stop (List.suffix_refl s) .zero 2).bind ?_
  rintro ⟨clock, afterFields⟩ hfields
  have hafter : afterFields <:+ s :=
    (readClockFields_suffix hfields).trans (List.dropWhile_suffix _)
  refine ((readFraction_stop clock afterFields).mono hafter).bind ?_
  rintro ⟨whole, rest⟩ -
  simp only
  split
  · split
    · exact stopsIn_ok _
    · exact stopsIn_error (List.suffix_refl s)
  · exact stopsIn_error (List.suffix_refl s)

theorem readReference_stop (s : List Char) : StopsIn s (readReference s) := by
  rw [readReference]
  split
  · exact stopsIn_ok _
  · exact stopsIn_error (skipBlank_suffix s)

/-- What follows a timestamp and the layout behind it. -/
theorem skipBlank_suffix_of_readTimestamp {s rest : List Char} {clock : ClockTime}
    (h : readTimestamp s = .ok (clock, rest)) : skipBlank rest <:+ s :=
  (skipBlank_suffix rest).trans ((readTimestamp_suffix h).trans (List.dropWhile_suffix _))

theorem readTimestamps_stop (first : Bool) (s : List Char) :
    StopsIn s (readTimestamps first s) := by
  fun_induction readTimestamps first s with
  | case1 => exact stopsIn_ok _
  | case2 first d tail hd stop hclock =>
    rintro _ ⟨⟩
    exact readTimestamp_stop _ stop hclock
  | case3 d tail hd clock rest hclock hlt hat stop hreference =>
    rintro _ ⟨⟩
    exact (readReference_stop _ stop hreference).trans
      ((List.drop_suffix 1 _).trans (skipBlank_suffix_of_readTimestamp hclock))
  | case4 => exact stopsIn_ok _
  | case5 first d tail hd clock rest hclock hlt hat hfirst =>
    exact stopsIn_error (skipBlank_suffix_of_readTimestamp hclock)
  | case6 first d tail hd clock rest hclock hlt hat stop hothers ih =>
    rintro _ ⟨⟩
    exact (ih stop hothers).trans (skipBlank_suffix_of_readTimestamp hclock)
  | case7 => exact stopsIn_ok _
  | case8 => exact stopsIn_ok _

theorem readTimes_stop (s : List Char) : StopsIn s (readTimes s) := by
  simp only [readTimes]
  split
  · have hreference : (skipBlank s).drop 1 <:+ s :=
      (List.drop_suffix 1 _).trans (skipBlank_suffix s)
    exact ((readReference_stop _).mono hreference).map _
  · exact (readTimestamps_stop true _).mono (skipBlank_suffix s)

/-! ## Groups -/

theorem readGroup_stop (s : List Char) : StopsIn s (readGroup s) := by
  rw [readGroup]
  refine (expect_stop '[' s).bind fun afterOpen hopen => ?_
  have hinside := suffix_of_expect hopen
  refine ((readInputs_stop afterOpen).mono hinside).bind fun heads hheads => ?_
  have hbehind : heads.2 <:+ s := (readInputs_suffix hheads).trans hinside
  refine ((expect_stop ']' heads.2).mono hbehind).bind fun afterClose hclose => ?_
  have htimes : afterClose <:+ s := (suffix_of_expect hclose).trans hbehind
  exact ((readTimes_stop afterClose).mono htimes).bind fun _ _ => stopsIn_ok _

theorem readGroup_suffix {s : List Char} {found : List InputSpec × List Char}
    (h : readGroup s = .ok found) : found.2 <:+ s := by
  simp only [readGroup, bind, Except.bind] at h
  split at h
  · cases h
  · next afterOpen hopen =>
    split at h
    · cases h
    · next heads hheads =>
      split at h
      · cases h
      · next afterClose hclose =>
        split at h
        · cases h
        · next timed htimes =>
          cases h
          exact (readTimes_suffix htimes).trans ((suffix_of_expect hclose).trans
            ((readInputs_suffix hheads).trans (suffix_of_expect hopen)))

/-- A configuration that is refused is refused at a point of its text. -/
theorem readGroups_stop (s : List Char) : StopsIn s (readGroups s) := by
  fun_induction readGroups s with
  | case1 => exact stopsIn_ok _
  | case2 s tail stop hs hgroup =>
    rintro _ ⟨⟩
    exact (readGroup_stop _ stop hgroup).trans (hs ▸ skipBlank_suffix s)
  | case3 s tail specs rest stop hothers hs hgroup hlt ih =>
    rintro _ ⟨⟩
    exact (ih stop hothers).trans ((readGroup_suffix hgroup).trans (hs ▸ skipBlank_suffix s))
  | case4 => exact stopsIn_ok _
  | case5 s c tail hs hc => exact stopsIn_error (hs ▸ skipBlank_suffix s)

end EpisodeCut.Config
