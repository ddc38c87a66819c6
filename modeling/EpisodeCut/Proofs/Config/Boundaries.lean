import EpisodeCut.Proofs.Config.Cursor
import EpisodeCut.Proofs.Config.Recognized

/-!
# Every cut is between characters

The reader with a byte cursor cuts out whole characters only, in every text, and gives what the reader
of characters gives (`cuts_fit`). Inside a comment the cursor stands in the middle of characters, so no
invariant of all cursors says this. It is said of each reader: from a boundary it comes to a boundary,
where the reader of characters leaves off (`Agrees`). A loop over bytes keeps to this since its class
either holds ASCII characters only or holds all the others, so that it shows in every byte
(`Text.IsBytewise`).

Where no colon comes next, the cursor has passed the blanks in front, which the reader of characters
leaves; after going back, it stands before them as well. Readers that skip blanks begin from both
places alike (`StandsNear`).
-/

set_option autoImplicit false

namespace EpisodeCut.Config

open Text

/-! ## Classes -/

theorem toNat_lt_of_isAlphanum {c : Char} (h : c.isAlphanum = true) : c.toNat < 0x80 :=
  Nat.lt_of_le_of_lt (toNat_of_isAlphanum h).2 (by decide)

theorem isBytewise_isAlphanum : IsBytewise Char.isAlphanum :=
  isBytewise_of_ascii fun _ => toNat_lt_of_isAlphanum

theorem isBytewise_isAlpha : IsBytewise Char.isAlpha :=
  isBytewise_of_ascii fun c h => toNat_lt_of_isAlphanum (by rw [Char.isAlphanum, h, Bool.true_or])

theorem isBytewise_isDigit : IsBytewise Char.isDigit :=
  isBytewise_of_ascii fun c h => toNat_lt_of_isAlphanum (by rw [Char.isAlphanum, h, Bool.or_true])

theorem isBytewise_startsNumber : IsBytewise fun c => c.isDigit || c == '-' := by
  refine isBytewise_of_ascii fun c h => ?_
  rcases Bool.or_eq_true_iff.1 h with hdigit | hminus
  · exact toNat_lt_of_isAlphanum (by rw [Char.isAlphanum, hdigit, Bool.or_true])
  · rw [beq_iff_eq.1 hminus]
    decide

theorem toNat_lt_of_isNameStart {c : Char} (h : isNameStart c = true) : c.toNat < 0x80 := by
  simp only [isNameStart, Bool.or_eq_true, beq_iff_eq] at h
  rcases h with ((h | rfl) | rfl) | rfl
  · exact toNat_lt_of_isAlphanum h
  all_goals decide

theorem isBytewise_isNameStart : IsBytewise isNameStart :=
  isBytewise_of_ascii fun _ => toNat_lt_of_isNameStart

theorem isBytewise_isNameChar : IsBytewise isNameChar := by
  refine isBytewise_of_ascii fun c h => ?_
  simp only [isNameChar, Bool.or_eq_true, beq_iff_eq] at h
  rcases h with ((h | rfl) | rfl) | rfl
  · exact toNat_lt_of_isNameStart h
  all_goals decide

theorem toNat_lt_of_isLayout {c : Char} (h : isLayout c = true) : c.toNat < 0x80 := by
  simp only [isLayout, Bool.or_eq_true, beq_iff_eq] at h
  rcases h with (((rfl | rfl) | rfl) | rfl) | rfl <;> decide

theorem isBytewise_isLayout : IsBytewise isLayout :=
  isBytewise_of_ascii fun _ => toNat_lt_of_isLayout

theorem isBytewise_endsTimestamp : IsBytewise endsTimestamp := by
  refine isBytewise_of_ascii fun c h => ?_
  simp only [endsTimestamp, Bool.or_eq_true, beq_iff_eq] at h
  rcases h with ((h | rfl) | rfl) | rfl
  · exact toNat_lt_of_isLayout h
  all_goals decide

/-! ## Blanks -/

/-- A comment ends at a line feed, and the blanks behind it are skipped. -/
theorem skipComment_eq (s : List Char) :
    skipComment s = skipBlank (s.dropWhile (· != '\n')) := by
  induction s with
  | nil => rfl
  | cons c s ih =>
    rw [skipComment]
    split
    · next hc =>
      rw [beq_iff_eq.1 hc, List.dropWhile_cons_of_neg (by decide), skipBlank, if_pos (by decide)]
    · next hc => rw [List.dropWhile_cons_of_pos (by simpa using hc), ih]

/-- Blanks and comments are passed from boundary to boundary. -/
theorem ahead_blankEnd {text : String} {offset : Nat} {s : List Char} (h : Ahead text offset s) :
    Ahead text (blankEnd text offset) (skipBlank s) := by
  fun_induction blankEnd text offset generalizing s with
  | case1 offset hend =>
    have hs := h.byte?_eq_none_iff.1 hend
    subst hs
    exact h
  | case2 offset c hc hlayout ih =>
    obtain ⟨d, rest, rfl⟩ := h.exists_cons hc
    have hd : isLayout d = true := by rw [← h.class_eq hc isBytewise_isLayout, hlayout]
    rw [skipBlank, if_pos hd]
    exact ih (h.tail (toNat_lt_of_isLayout hd))
  | case3 offset hhash hlayout ih =>
    -- Within the comment the offset passes through characters; it leaves the comment at a boundary.
    obtain ⟨rest, rfl⟩ := List.head?_eq_some_iff.1 ((h.byte?_eq_some_iff (by decide)).1 hhash)
    rw [skipBlank, if_neg hlayout, if_pos (beq_self_eq_true _), skipComment_eq]
    exact ih (h.passWhile isBytewise_ne_newline)
  | case4 offset c hc hlayout hhash =>
    obtain ⟨d, rest, rfl⟩ := h.exists_cons hc
    have hd : ¬isLayout d = true := by rwa [← h.class_eq hc isBytewise_isLayout]
    have hcomment : d ≠ '#' := by
      rintro rfl
      have hbyte := (h.byte?_eq_some_iff (by decide)).2 rfl
      rw [hc] at hbyte
      exact hhash (Option.some.inj hbyte)
    rwa [skipBlank, if_neg hd, if_neg (by simpa using hcomment)]

/-! ## Agreement -/

/-- A cursor stands on a boundary with `s` ahead, and all that was cut out until then fits. -/
structure Stands (text : String) (s : List Char) (cursor : Cursor) : Prop where
  ahead : Ahead text cursor.offset s
  fits : ∀ cut ∈ cursor.cuts, cut.Fits text

/-- A cursor stands before `s` up to blanks: it may have passed them already, or not yet. -/
def StandsNear (text : String) (s : List Char) (cursor : Cursor) : Prop :=
  ∃ t, skipBlank t = skipBlank s ∧ Stands text t cursor

/-- A run ends as a reader of the characters does. It stands where that one leaves off, or refuses the
text at the same point, and all cuts fit. -/
inductive Agrees {α : Type} (text : String) (reached : List Char → Cursor → Prop) :
    EStateM.Result Halt Cursor α → Except Stop (α × List Char) → Prop where
  | ok {a : α} {rest : List Char} {cursor : Cursor} (there : reached rest cursor) :
    Agrees text reached (.ok a cursor) (.ok (a, rest))
  | error {fault : Fault} {rest : List Char} {cursor : Cursor}
    (fits : ∀ cut ∈ cursor.cuts, cut.Fits text) :
    Agrees text reached
      (.error (.refused (.malformed (Position.ofSuffix text.toList rest) fault)) cursor)
      (.error ⟨fault, rest⟩)

section Agreement

variable {α β : Type} {text : String} {reached reached' : List Char → Cursor → Prop}
  {s rest piece : List Char} {cursor : Cursor} {scan : Scan text α} {next : α → Scan text β} {a : α}

theorem Stands.near (h : Stands text s cursor) : StandsNear text s cursor :=
  ⟨s, rfl, h⟩

theorem Stands.near_of_skipBlank (h : Stands text (skipBlank s) cursor) : StandsNear text s cursor :=
  ⟨skipBlank s, skipBlank_skipBlank s, h⟩

theorem Agrees.near {outcome : EStateM.Result Halt Cursor α} {result : Except Stop (α × List Char)}
    (h : Agrees text (Stands text) outcome result) : Agrees text (StandsNear text) outcome result := by
  cases h with
  | ok there => exact .ok there.near
  | error fits => exact .error fits

/-- Readers one after another. -/
theorem Agrees.bind {result : Except Stop (α × List Char)}
    {more : α × List Char → Except Stop (β × List Char)}
    (h : Agrees text reached (scan.run cursor) result)
    (hnext : ∀ a rest middle, result = .ok (a, rest) → reached rest middle →
      Agrees text reached' ((next a).run middle) (more (a, rest))) :
    Agrees text reached' ((scan >>= next).run cursor) (result.bind more) := by
  rw [Scan.run_bind]
  generalize scan.run cursor = outcome at h
  cases h with
  | ok there => exact hnext _ _ _ rfl there
  | error fits => exact .error fits

/-- What follows a reader that succeeds. -/
theorem Agrees.bind_ok {result : Except Stop (β × List Char)}
    (h : Agrees text reached (scan.run cursor) (.ok (a, rest)))
    (hnext : ∀ middle, reached rest middle → Agrees text reached' ((next a).run middle) result) :
    Agrees text reached' ((scan >>= next).run cursor) result := by
  rw [Scan.run_bind]
  generalize scan.run cursor = outcome at h
  cases h with
  | ok there => exact hnext _ there

theorem Agrees.bind_error {stop : Stop} (h : Agrees text reached (scan.run cursor) (.error stop)) :
    Agrees text reached' ((scan >>= next).run cursor) (.error stop) := by
  rw [Scan.run_bind]
  generalize scan.run cursor = outcome at h
  cases h with
  | error fits => exact .error fits

theorem Agrees.exists_ok {outcome : EStateM.Result Halt Cursor α}
    (h : Agrees text reached outcome (.ok (a, rest))) :
    ∃ middle, outcome = .ok a middle ∧ reached rest middle := by
  cases h with
  | ok there => exact ⟨_, rfl, there⟩

/-- Only the result is changed. -/
theorem Agrees.map {result : Except Stop (α × List Char)} {f : α → β}
    (h : Agrees text reached (scan.run cursor) result) :
    Agrees text reached ((scan >>= fun a => pure (f a)).run cursor)
      (result.map fun found => (f found.1, found.2)) := by
  cases result with
  | error stop => exact h.bind_error
  | ok found => exact h.bind_ok fun _ => .ok

/-! ## Moving and cutting -/

theorem Stands.pass {c : Char} (h : Stands text (c :: s) cursor) (ascii : c.toNat < 0x80) :
    Agrees text (Stands text) ((Scan.pass 1 : Scan text Unit).run cursor) (.ok ((), s)) :=
  .ok ⟨h.ahead.tail ascii, h.fits⟩

theorem StandsNear.skipBlank (h : StandsNear text s cursor) :
    Agrees text (Stands text) ((Scan.skipBlank : Scan text Unit).run cursor)
      (.ok ((), Config.skipBlank s)) := by
  obtain ⟨t, hblank, hstands⟩ := h
  exact .ok ⟨hblank ▸ ahead_blankEnd hstands.ahead, hstands.fits⟩

/-- Whole characters are cut out, wherever the cursor stands. -/
theorem Stands.cut (h : Stands text s cursor) {start : Nat} (hstart : Ahead text start (piece ++ rest)) :
    Agrees text (Stands text)
      ((Scan.cut start (start + String.utf8Len piece) : Scan text String).run cursor)
      (.ok (String.ofList piece, s)) := by
  have hrun : (Scan.cut start (start + String.utf8Len piece) : Scan text String).run cursor =
      .ok (String.ofList piece)
        { cursor with cuts := cursor.cuts ++ [⟨start, start + String.utf8Len piece⟩] } := by
    simp only [Scan.cut, hstart.cut?_eq]
  rw [hrun]
  refine .ok ⟨h.ahead, fun cut hcut => ?_⟩
  rcases List.mem_append.1 hcut with hearlier | hlast
  · exact h.fits cut hearlier
  · rw [List.mem_singleton.1 hlast]
    exact hstart.fits

theorem Stands.takeWhile (h : Stands text s cursor) {p : Char → Bool} (bytewise : IsBytewise p) :
    Agrees text (Stands text) ((Scan.takeWhile p : Scan text String).run cursor)
      (.ok (String.ofList (s.takeWhile p), s.dropWhile p)) := by
  have hmoved : Stands text (s.dropWhile p) { cursor with offset := passWhile text p cursor.offset } :=
    ⟨h.ahead.passWhile bytewise, h.fits⟩
  have hstart : Ahead text cursor.offset (s.takeWhile p ++ s.dropWhile p) := by
    rw [List.takeWhile_append_dropWhile]
    exact h.ahead
  have hcut := hmoved.cut hstart
  rw [← h.ahead.passWhile_eq bytewise] at hcut
  exact hcut

/-- Where no byte of a class comes next, nothing has been passed. -/
theorem Stands.of_isEmpty {p : Char → Bool} (h : Stands text (s.dropWhile p) cursor)
    (hempty : (s.takeWhile p).isEmpty = true) : Stands text s cursor := by
  have hstay := List.takeWhile_append_dropWhile (p := p) (l := s)
  rw [List.isEmpty_iff.1 hempty, List.nil_append] at hstay
  rwa [hstay] at h

theorem Stands.readAhead (h : Stands text s cursor) :
    Agrees text (Stands text) ((Scan.ahead : Scan text String).run cursor)
      (.ok (String.ofList s, s)) := by
  have hcut := h.cut ((List.append_nil s).symm ▸ h.ahead)
  rw [h.ahead.add_utf8Len] at hcut
  exact hcut

/-! ## Refusals -/

/-- The position of a boundary is found, and it is the one of the text from there on. -/
theorem Stands.locate (h : Stands text s cursor) {offset : Nat} (hoffset : Ahead text offset rest) :
    Agrees text (Stands text) ((Scan.locate offset : Scan text Position).run cursor)
      (.ok (Position.ofSuffix text.toList rest, s)) := by
  obtain ⟨before, htext, rfl⟩ := id hoffset
  have hsize := hoffset.add_utf8Len
  have hline := ahead_lineStart htext
  have hbefore : 0 + String.utf8Len before = String.utf8Len before := Nat.zero_add _
  have hcurrent : lineStart text (String.utf8Len before) +
      String.utf8Len (Position.lastLine before) = String.utf8Len before := by
    have := hline.add_utf8Len
    rw [String.utf8Len_append] at this
    omega
  rw [Scan.locate, Nat.min_eq_left (by omega), hoffset.lastBoundary_eq, htext, Position.ofSuffix_append]
  have hfirst := h.cut (htext ▸ ahead_start text)
  rw [hbefore] at hfirst
  refine hfirst.bind_ok fun c₁ h₁ => ?_
  have hsecond := h₁.cut hline
  rw [hcurrent] at hsecond
  refine hsecond.bind_ok fun c₂ h₂ => ?_
  have hthird := h₂.cut ((List.append_nil rest).symm ▸ hoffset)
  rw [hsize] at hthird
  refine hthird.bind_ok fun c₃ h₃ => ?_
  simp only [String.toList_ofList, String.length_ofList]
  exact .ok h₃

theorem Stands.refuseAt (h : Stands text s cursor) {offset : Nat} (hoffset : Ahead text offset rest)
    (fault : Fault) :
    Agrees text reached ((Scan.refuseAt offset fault : Scan text α).run cursor)
      (.error ⟨fault, rest⟩) :=
  (h.locate hoffset).bind_ok fun _ there => .error there.fits

theorem Stands.refuse (h : Stands text s cursor) (fault : Fault) :
    Agrees text reached ((Scan.refuse fault : Scan text α).run cursor) (.error ⟨fault, s⟩) :=
  h.refuseAt h.ahead fault

/-! ## Single characters -/

theorem StandsNear.consume_of_some {c : Char} (h : StandsNear text s cursor) (ascii : c.toNat < 0x80)
    (heat : eat? c s = some rest) :
    Agrees text (Stands text) ((Scan.consume c : Scan text Bool).run cursor) (.ok (true, rest)) := by
  refine h.skipBlank.bind_ok fun middle hmiddle => ?_
  rw [skipBlank_of_eat? heat] at hmiddle
  rw [Scan.run_peek_bind, if_pos ((hmiddle.ahead.byte?_eq_some_iff ascii).2 rfl)]
  exact (hmiddle.pass ascii).bind_ok fun _ there => .ok there

theorem StandsNear.consume_of_none {c : Char} (h : StandsNear text s cursor) (ascii : c.toNat < 0x80)
    (heat : eat? c s = none) :
    Agrees text (Stands text) ((Scan.consume c : Scan text Bool).run cursor)
      (.ok (false, Config.skipBlank s)) := by
  refine h.skipBlank.bind_ok fun middle hmiddle => ?_
  have hother : byte? text middle.offset ≠ some c := by
    intro hbyte
    obtain ⟨rest, hrest⟩ :=
      List.head?_eq_some_iff.1 ((hmiddle.ahead.byte?_eq_some_iff ascii).1 hbyte)
    rw [eat?_of_skipBlank hrest] at heat
    cases heat
  rw [Scan.run_peek_bind, if_neg hother]
  exact .ok hmiddle

theorem StandsNear.expect {c : Char} (h : StandsNear text s cursor) (ascii : c.toNat < 0x80) :
    Agrees text (Stands text) ((Scan.expect c : Scan text Unit).run cursor)
      ((Config.expect c s).map fun rest => ((), rest)) := by
  rw [Config.expect]
  cases heat : eat? c s with
  | some rest => exact (h.consume_of_some ascii heat).bind_ok fun _ there => .ok there
  | none => exact (h.consume_of_none ascii heat).bind_ok fun _ there => there.refuse _

/-! ## Inputs -/

theorem isEmpty_ofList (s : List Char) : (String.ofList s).isEmpty = s.isEmpty := by
  cases s <;> simp

theorem StandsNear.readKind (h : StandsNear text s cursor) :
    Agrees text (Stands text) ((Scan.readKind : Scan text MediaKind).run cursor)
      (Config.readKind s) := by
  refine h.skipBlank.bind_ok fun begin hbegin => ?_
  rw [Scan.run_offset_bind]
  refine (hbegin.takeWhile isBytewise_isAlpha).bind_ok fun behind hbehind => ?_
  simp only [Config.readKind, String.toList_ofList, isEmpty_ofList]
  cases kindWords.lookup ((Config.skipBlank s).takeWhile Char.isAlpha) with
  | some kind => exact .ok hbehind
  | none =>
    simp only
    split
    · next hword => exact (hbehind.of_isEmpty hword).refuse _
    · exact hbehind.refuseAt hbegin.ahead _

/-- Looking ahead for a word finds it where reading the word does. -/
theorem Stands.atWord (h : Stands text s cursor) {word : List Char} {p : Char → Bool}
    (bytewise : IsBytewise p) (ascii : String.utf8Len word = word.length)
    {found : Option (List Char)}
    (hfound : ∀ rest, found = some rest ↔ s = word ++ rest ∧ rest.head?.any p = false) :
    Agrees text (Stands text) ((Scan.atWord word p : Scan text Bool).run cursor)
      (.ok (found.isSome, s)) := by
  refine h.readAhead.bind_ok fun middle hmiddle => ?_
  rw [Scan.run_peekAt_bind, String.toList_ofList]
  by_cases hword : word <+: s
  · obtain ⟨rest, rfl⟩ := hword
    have hahead : Ahead text (middle.offset + word.length) rest := ascii ▸ hmiddle.ahead.append
    have hbegins : word.isPrefixOf (word ++ rest) = true :=
      List.isPrefixOf_iff_prefix.2 (List.prefix_append word rest)
    have hsome : found.isSome = !rest.head?.any p := by
      rw [Bool.eq_iff_iff, Option.isSome_iff_exists, Bool.not_eq_true']
      constructor
      · rintro ⟨tail, htail⟩
        obtain ⟨heq, hend⟩ := (hfound tail).1 htail
        rwa [List.append_cancel_left heq]
      · exact fun hend => ⟨rest, (hfound rest).2 ⟨rfl, hend⟩⟩
    rw [hahead.any_head? bytewise, hbegins, Bool.true_and, ← hsome]
    exact .ok hmiddle
  · have hbegins : word.isPrefixOf s = false :=
      Bool.eq_false_iff.2 fun h => hword (List.isPrefixOf_iff_prefix.1 h)
    have hnone : found = none := by
      cases found with
      | none => rfl
      | some rest => exact absurd ⟨rest, ((hfound rest).1 rfl).1.symm⟩ hword
    rw [hbegins, Bool.false_and, hnone]
    exact .ok hmiddle

theorem Stands.passLastFrame (h : Stands text s cursor) (kind : MediaKind) :
    Agrees text (Stands text) ((Scan.passLastFrame kind : Scan text Bool).run cursor)
      (.ok ((lastFrame? kind s).isSome, (lastFrame? kind s).getD s)) := by
  rw [Scan.passLastFrame, lastFrame?]
  split
  · refine (h.atWord isBytewise_isAlphanum rfl fun _ => lastWord?_eq_some_iff).bind_ok
      fun middle hmiddle => ?_
    cases hword : lastWord? s with
    | some rest =>
      obtain ⟨rfl, -⟩ := lastWord?_eq_some_iff.1 hword
      exact .ok ⟨hmiddle.ahead.append, hmiddle.fits⟩
    | none =>
      refine (hmiddle.atWord isBytewise_isDigit rfl fun _ => minusOne?_eq_some_iff).bind_ok
        fun last hlast => ?_
      cases hone : minusOne? s with
      | some rest =>
        obtain ⟨rfl, -⟩ := minusOne?_eq_some_iff.1 hone
        exact .ok ⟨hlast.ahead.append, hlast.fits⟩
      | none => exact .ok hlast
  · exact .ok h

theorem Stands.atIndex (h : Stands text s cursor) (kind : MediaKind) :
    Agrees text (Stands text) ((Scan.atIndex kind : Scan text Bool).run cursor)
      (.ok (startsIndex kind s, s)) := by
  -- The cursor looks at one byte and may then look for the word; `startsIndex` looks for both at once.
  rw [Scan.atIndex, Scan.run_peek_bind]
  cases hbyte : byte? text cursor.offset with
  | none =>
    have hs := h.ahead.byte?_eq_none_iff.1 hbyte
    subst hs
    cases kind <;> exact .ok h
  | some c =>
    obtain ⟨d, rest, rfl⟩ := h.ahead.exists_cons hbyte
    have hclass : (c.isDigit || c == '-') = (d.isDigit || d == '-') :=
      h.ahead.class_eq (p := fun c => c.isDigit || c == '-') hbyte isBytewise_startsNumber
    simp only [startsIndex, List.head?_cons, Option.any_some, ← hclass]
    by_cases hnumber : (c.isDigit || c == '-') = true
    · rw [if_pos hnumber, hnumber]
      exact .ok h
    · rw [if_neg hnumber, Bool.eq_false_iff.2 hnumber, Bool.false_or]
      by_cases hword : c = 'l' ∧ kind = .frame
      · rw [if_pos hword, decide_eq_true hword.2, Bool.true_and]
        exact h.atWord isBytewise_isAlphanum rfl fun _ => lastWord?_eq_some_iff
      · have hnone : (decide (kind = .frame) && (lastWord? (d :: rest)).isSome) = false := by
          rw [Bool.and_eq_false_iff, decide_eq_false_iff_not, or_iff_not_imp_left, not_not]
          intro hkind
          rw [Option.isSome_eq_false_iff, Option.isNone_iff_eq_none, Option.eq_none_iff_forall_ne_some]
          intro tail htail
          obtain ⟨rfl, -⟩ := List.cons_eq_cons.1 (lastWord?_eq_some_iff.1 htail).1
          have hl := (h.ahead.byte?_eq_some_iff (c := 'l') (by decide)).2 rfl
          rw [hbyte] at hl
          exact hword ⟨Option.some.inj hl, hkind⟩
        rw [if_neg hword, hnone]
        exact .ok h

theorem exists_cons_of_digit (digit : s.head?.any Char.isDigit = true) :
    ∃ c rest, s = c :: rest ∧ c.isDigit = true := by
  cases s with
  | nil => cases digit
  | cons c rest => exact ⟨c, rest, rfl, digit⟩

/-- Digits are read as a number whenever it is small enough. -/
theorem readBelow?_takeWhile (bound : Nat) (digit : s.head?.any Char.isDigit = true) :
    Numeral.readBelow? bound (s.takeWhile Char.isDigit) =
      if Numeral.value (s.takeWhile Char.isDigit) < bound then
        some (Numeral.value (s.takeWhile Char.isDigit))
      else none := by
  obtain ⟨c, rest, hs, hc⟩ := exists_cons_of_digit digit
  have hhead : s.takeWhile Char.isDigit = c :: rest.takeWhile Char.isDigit := by
    rw [hs, List.takeWhile_cons_of_pos hc]
  have hplus : ¬(s.takeWhile Char.isDigit).head? = some '+' := by
    rw [hhead, List.head?_cons, Option.some.injEq]
    rintro rfl
    cases hc
  have hread : Numeral.read? (s.takeWhile Char.isDigit) =
      some (Numeral.value (s.takeWhile Char.isDigit)) :=
    Numeral.read?_eq_some_iff.2 ⟨by rw [hhead]; exact List.cons_ne_nil _ _,
      fun d hd => List.all_eq_true.1 List.all_takeWhile d hd, rfl⟩
  rw [Numeral.readBelow?, if_neg hplus, hread, Option.filter_some]
  simp only [decide_eq_true_eq]

theorem Stands.readIndex (h : Stands text s cursor) {kind : MediaKind}
    (starts : startsIndex kind s = true) :
    Agrees text (Stands text) ((Scan.readIndex kind : Scan text FrameNumber).run cursor)
      (Config.readIndex kind s) := by
  rw [Scan.readIndex, Scan.run_offset_bind, Config.readIndex]
  refine (h.passLastFrame kind).bind_ok fun middle hmiddle => ?_
  cases hframe : lastFrame? kind s with
  | some rest =>
    rw [hframe] at hmiddle
    exact .ok hmiddle
  | none =>
    rw [hframe, Option.getD_none] at hmiddle
    simp only [Option.isSome_none, Bool.false_eq_true, if_false]
    rw [Scan.run_peek_bind]
    by_cases hminus : s.head? = some '-'
    · rw [if_pos ((hmiddle.ahead.byte?_eq_some_iff (by decide)).2 hminus), if_pos hminus]
      exact hmiddle.refuse _
    · rw [if_neg fun hbyte => hminus ((hmiddle.ahead.byte?_eq_some_iff (by decide)).1 hbyte),
        if_neg hminus]
      refine (hmiddle.takeWhile isBytewise_isDigit).bind_ok fun behind hbehind => ?_
      rw [String.toList_ofList,
        readBelow?_takeWhile UInt32.size (digit_of_startsIndex starts hminus hframe)]
      by_cases hfits : Numeral.value (s.takeWhile Char.isDigit) < UInt32.size
      · simp only [if_pos hfits]
        exact .ok hbehind
      · simp only [if_neg hfits]
        exact hbehind.refuseAt h.ahead _

theorem Stands.readFileName? (h : Stands text s cursor) :
    Agrees text (Stands text) ((Scan.readFileName? : Scan text (Option String)).run cursor)
      (.ok ((Config.readFileName? s).map Prod.fst, ((Config.readFileName? s).map Prod.snd).getD s)) := by
  rw [Scan.readFileName?, Scan.run_peek_bind, h.ahead.any_head? isBytewise_isNameStart,
    Config.readFileName?]
  split
  · refine (h.takeWhile isBytewise_isNameChar).bind_ok fun behind hbehind => ?_
    rw [String.toList_ofList]
    exact .ok hbehind
  · exact .ok h

theorem StandsNear.readSource (h : StandsNear text s cursor) (kind : MediaKind) :
    Agrees text (Stands text) ((Scan.readSource kind : Scan text (Option SourceRef)).run cursor)
      (.ok (Config.readSource kind s)) := by
  refine h.skipBlank.bind_ok fun begin hbegin => ?_
  simp only [Scan.run_peek_bind, hbegin.ahead.byte?_eq_some_iff (c := '^') (by decide),
    Config.readSource]
  split
  · next hprevious =>
    obtain ⟨rest, hrest⟩ := List.head?_eq_some_iff.1 hprevious.2
    rw [hrest] at hbegin ⊢
    exact (hbegin.pass (by decide)).bind_ok fun _ there => .ok there
  · refine hbegin.readFileName?.bind_ok fun behind hbehind => ?_
    cases hname : Config.readFileName? (Config.skipBlank s) with
    | none =>
      rw [hname] at hbehind
      exact .ok hbehind
    | some found =>
      rw [hname] at hbehind
      exact .ok hbehind

theorem StandsNear.readIndex? (h : StandsNear text s cursor) (kind : MediaKind) :
    Agrees text (Stands text)
      ((Scan.readIndex? kind : Scan text (Option FrameNumber)).run cursor)
      (if startsIndex kind (Config.skipBlank s) then
        (Config.readIndex kind (Config.skipBlank s)).map fun found => (some found.1, found.2)
      else .ok (none, Config.skipBlank s)) := by
  refine h.skipBlank.bind_ok fun begin hbegin => ?_
  refine (hbegin.atIndex kind).bind_ok fun middle hmiddle => ?_
  split
  · next starts => exact (hmiddle.readIndex starts).map
  · exact .ok hmiddle

/-- What comes behind a character is read, or the cursor goes back to where it stood before it. -/
theorem StandsNear.behind {c : Char} {scan : Scan text (Option α)}
    (h : StandsNear text s cursor) (ascii : c.toNat < 0x80) (heat : eat? c s = some rest)
    {result : Except Stop (Option α × List Char)}
    (hscan : ∀ middle, Stands text rest middle → Agrees text (Stands text) (scan.run middle) result) :
    Agrees text (StandsNear text) ((Scan.behind c scan).run cursor)
      (result.map fun found => if found.1.isNone then (none, s) else found) := by
  obtain ⟨middle, hconsume, hmiddle⟩ := (h.consume_of_some ascii heat).exists_ok
  have hread := hscan middle hmiddle
  obtain ⟨t, hblank, hstands⟩ := h
  simp only [Scan.behind, hconsume]
  generalize scan.run middle = outcome at hread
  cases hread with
  | error fits => exact .error fits
  | @ok found rest last there =>
    cases found with
    -- The offset from before is a boundary still, and the cuts made since then stay recorded.
    | none => exact .ok ⟨t, hblank, hstands.ahead, there.fits⟩
    | some a => exact .ok there.near

theorem StandsNear.readIndexField (h : StandsNear text s cursor) (kind : MediaKind) :
    Agrees text (StandsNear text)
      ((Scan.readIndexField kind : Scan text (Option FrameNumber)).run cursor)
      (Config.readIndexField kind s) := by
  rw [Config.readIndexField]
  cases hcolon : eat? ':' s with
  | none =>
    obtain ⟨middle, hconsume, hmiddle⟩ := (h.consume_of_none (by decide) hcolon).exists_ok
    simp only [Scan.readIndexField, Scan.behind, hconsume]
    exact .ok hmiddle.near_of_skipBlank
  | some rest =>
    simp only
    have hread := h.behind (by decide) hcolon fun _ hmiddle => hmiddle.near.readIndex? kind
    split
    · next starts =>
      rw [if_pos starts] at hread
      cases hindex : Config.readIndex kind (Config.skipBlank rest) <;> rwa [hindex] at hread
    · next starts => rwa [if_neg starts] at hread

theorem StandsNear.readInput (h : StandsNear text s cursor) :
    Agrees text (StandsNear text) ((Scan.readInput : Scan text Input).run cursor)
      (Config.readInput s) := by
  refine h.readKind.bind fun kind rest middle _ hmiddle => ?_
  simp only
  cases hcolon : eat? ':' rest with
  | none =>
    refine (hmiddle.near.consume_of_none (by decide) hcolon).bind_ok fun behind hbehind => ?_
    exact .ok hbehind.near_of_skipBlank
  | some afterColon =>
    refine (hmiddle.near.consume_of_some (by decide) hcolon).bind_ok fun behind hbehind => ?_
    refine (hbehind.near.readSource kind).bind_ok fun sourced hsourced => ?_
    exact (hsourced.near.readIndexField kind).bind fun _ _ _ _ there => .ok there

/-! ## Times -/

theorem Stands.readField {t : List Char} {start : Nat} (h : Stands text s cursor)
    (hstart : Ahead text start t) (digit : s.head?.any Char.isDigit = true) :
    Agrees text (Stands text) ((Scan.readField start : Scan text UInt64).run cursor)
      (if Numeral.value (s.takeWhile Char.isDigit) < UInt64.size then
        .ok (UInt64.ofNat (Numeral.value (s.takeWhile Char.isDigit)), s.dropWhile Char.isDigit)
      else .error ⟨.fieldTooLarge, t⟩) := by
  refine (h.takeWhile isBytewise_isDigit).bind_ok fun middle hmiddle => ?_
  have hsome : ¬(s.takeWhile Char.isDigit).isEmpty = true := by
    obtain ⟨c, rest, rfl, hc⟩ := exists_cons_of_digit digit
    simp [hc]
  rw [isEmpty_ofList, if_neg hsome, String.toList_ofList, readBelow?_takeWhile _ digit]
  by_cases hfits : Numeral.value (s.takeWhile Char.isDigit) < UInt64.size
  · simp only [if_pos hfits]
    exact .ok hmiddle
  · simp only [if_neg hfits]
    exact hmiddle.refuseAt hstart _

theorem Stands.atField (h : Stands text s cursor) :
    Agrees text (Stands text) ((Scan.atField : Scan text Bool).run cursor)
      (.ok (decide (s.head? = some ':' ∧ (s.drop 1).head?.any Char.isDigit = true), s)) := by
  rw [Scan.atField, Scan.run_peek_bind, Scan.run_peekAt_bind]
  simp only [h.ahead.byte?_eq_some_iff (c := ':') (by decide), Bool.decide_and]
  by_cases hcolon : s.head? = some ':'
  · obtain ⟨rest, rfl⟩ := List.head?_eq_some_iff.1 hcolon
    rw [(h.ahead.tail (by decide)).any_head? isBytewise_isDigit, List.drop_succ_cons, List.drop_zero,
      Bool.decide_eq_true]
    exact .ok h
  · rw [decide_eq_false hcolon, Bool.false_and, Bool.false_and]
    exact .ok h

theorem Stands.readClockFields {t : List Char} {start : Nat} (h : Stands text s cursor)
    (hstart : Ahead text start t) (clock : ClockTime) (room : Nat)
    (digit : s.head?.any Char.isDigit = true) :
    Agrees text (Stands text)
      ((Scan.readClockFields start clock room : Scan text ClockTime).run cursor)
      (Config.readClockFields t clock room s) := by
  -- Both readers recurse on the room that is left.
  induction room using Nat.strongRecOn generalizing clock s cursor with
  | ind room ih =>
    rw [Scan.readClockFields.eq_def, Config.readClockFields.eq_def]
    have hfield := h.readField hstart digit
    by_cases hfits : Numeral.value (s.takeWhile Char.isDigit) < UInt64.size
    · simp only [if_pos hfits] at hfield ⊢
      refine hfield.bind_ok fun middle hmiddle => ?_
      refine hmiddle.atField.bind_ok fun behind hbehind => ?_
      simp only [decide_eq_true_eq]
      split
      · next hmore =>
        obtain ⟨rest, hrest⟩ := List.head?_eq_some_iff.1 hmore.1
        rw [hrest] at hbehind hmore ⊢
        cases room with
        | zero => exact hbehind.refuse _
        | succ room =>
          refine (hbehind.pass (by decide)).bind_ok fun _ hpassed => ?_
          exact ih room room.lt_succ_self hpassed _ hmore.2
      · exact .ok hbehind
    · simp only [if_neg hfits] at hfield ⊢
      exact hfield.bind_error

theorem Stands.readFraction (h : Stands text s cursor) (clock : ClockTime) :
    Agrees text (Stands text) ((Scan.readFraction clock : Scan text ClockTime).run cursor)
      (Config.readFraction clock s) := by
  simp only [Scan.readFraction, Scan.run_peek_bind, h.ahead.byte?_eq_some_iff (c := '.') (by decide),
    Config.readFraction]
  split
  · next hpoint =>
    obtain ⟨rest, rfl⟩ := List.head?_eq_some_iff.1 hpoint
    refine (h.pass (by decide)).bind_ok fun behind hbehind => ?_
    refine (hbehind.takeWhile isBytewise_isDigit).bind_ok fun last hlast => ?_
    simp only [isEmpty_ofList, String.toList_ofList, List.drop_succ_cons, List.drop_zero]
    split
    · next hempty => exact (hlast.of_isEmpty hempty).refuse _
    · exact .ok hlast
  · exact .ok h

theorem Stands.all_byte? (h : Stands text s cursor) :
    (byte? text cursor.offset).all endsTimestamp = s.head?.all endsTimestamp := by
  have hall (c? : Option Char) : c?.all endsTimestamp = (c?.map endsTimestamp).all id := by
    cases c? <;> rfl
  rw [hall, h.ahead.map_byte? isBytewise_endsTimestamp, ← hall]

theorem Stands.readTimestamp (h : Stands text s cursor) (digit : s.head?.any Char.isDigit = true) :
    Agrees text (Stands text) ((Scan.readTimestamp : Scan text ClockTime).run cursor)
      (Config.readTimestamp s) := by
  rw [Scan.readTimestamp, Scan.run_offset_bind]
  refine (h.readClockFields h.ahead .zero 2 digit).bind fun clock rest middle _ hmiddle => ?_
  refine (hmiddle.readFraction clock).bind fun whole rest last _ hlast => ?_
  simp only [Scan.run_peek_bind, hlast.all_byte?]
  split
  · split
    · exact .ok hlast
    · exact hlast.refuseAt h.ahead _
  · exact hlast.refuseAt h.ahead _

theorem StandsNear.readReference (h : StandsNear text s cursor) :
    Agrees text (Stands text) ((Scan.readReference : Scan text TimeToken).run cursor)
      (Config.readReference s) := by
  refine h.skipBlank.bind_ok fun begin hbegin => ?_
  refine hbegin.readFileName?.bind_ok fun behind hbehind => ?_
  rw [Config.readReference]
  cases hname : Config.readFileName? (Config.skipBlank s) with
  | none =>
    rw [hname] at hbehind
    exact hbehind.refuse _
  | some found =>
    rw [hname] at hbehind
    exact .ok hbehind

/-! ## Groups -/

theorem map_bind {γ : Type} (result : Except Stop α) (f : α → Except Stop β) (g : β → γ) :
    (result.bind f).map g = result.bind fun a => (f a).map g := by
  cases result <;> rfl

theorem map_map {γ : Type} (result : Except Stop α) (f : α → β) (g : β → γ) :
    (result.map f).map g = result.map fun a => g (f a) := by
  cases result <;> rfl

/-- The inputs behind those that have been read are read one by one. -/
theorem StandsNear.readInputsAfter {s : List Char} {cursor : Cursor} (h : StandsNear text s cursor)
    (inputs : List Input) :
    Agrees text (StandsNear text)
      (((Scan.readInput : Scan text Input) >>= fun first =>
        Scan.loop Scan.nextInput Scan.nextInput_onward (inputs ++ [first])).run cursor)
      ((Config.readInputs s).map fun found => (inputs ++ found.1, found.2)) := by
  rw [readInputs_step, map_bind]
  refine h.readInput.bind fun first rest middle hfirst hmiddle => ?_
  rw [Scan.run_loop, Scan.nextInput, Scan.run_bind_assoc]
  simp only
  cases hcolon : eat? ':' rest with
  | none =>
    refine (hmiddle.consume_of_none (by decide) hcolon).bind_ok fun _ there => ?_
    exact .ok there.near_of_skipBlank
  | some more =>
    have : more.length < s.length :=
      Nat.lt_of_lt_of_le (length_lt_of_eat? hcolon) (readInput_suffix hfirst).length_le
    refine (hmiddle.consume_of_some (by decide) hcolon).bind_ok fun _ there => ?_
    have hothers := there.near.readInputsAfter (inputs ++ [first])
    simp only [List.append_assoc, List.singleton_append] at hothers
    rw [if_pos rfl, Scan.run_bind_assoc, map_map]
    simp only [List.append_assoc, List.singleton_append]
    exact hothers
termination_by s.length

theorem StandsNear.readInputs (h : StandsNear text s cursor) :
    Agrees text (StandsNear text) ((Scan.readInputs : Scan text (List Input)).run cursor)
      (Config.readInputs s) := by
  have hread := h.readInputsAfter []
  cases hinputs : Config.readInputs s <;> rwa [hinputs] at hread

/-- Behind a timestamp comes a duration reference, a further timestamp or the end of the list. -/
theorem StandsNear.afterTimestamp (h : StandsNear text s cursor) {times : List TimeToken}
    {more : List TimeToken → Scan text (List TimeToken)}
    {result : Except Stop (List TimeToken × List Char)}
    (hmore : ∀ middle, Stands text (Config.skipBlank s) middle →
      Agrees text (Stands text) ((more times).run middle) result) :
    Agrees text (Stands text)
      (((Scan.afterTimestamp times : Scan text _) >>= Sum.elim more pure).run cursor)
      (if (Config.skipBlank s).head? = some '@' then
        if times.length = 1 then
          (Config.readReference ((Config.skipBlank s).drop 1)).map fun found =>
            (times ++ [found.1], found.2)
        else .error ⟨.misplacedReference, Config.skipBlank s⟩
      else result) := by
  rw [Scan.afterTimestamp, Scan.run_bind_assoc]
  refine h.skipBlank.bind_ok fun begin hbegin => ?_
  simp only [Scan.run_bind_assoc, Scan.run_peek_bind,
    hbegin.ahead.byte?_eq_some_iff (c := '@') (by decide)]
  split
  · next hsign =>
    obtain ⟨rest, hrest⟩ := List.head?_eq_some_iff.1 hsign
    rw [hrest] at hbegin ⊢
    split
    · rw [Scan.run_bind_assoc]
      refine (hbegin.pass (by decide)).bind_ok fun _ hpassed => ?_
      rw [Scan.run_bind_assoc]
      exact hpassed.near.readReference.map (f := fun token => times ++ [token])
    · exact (hbegin.refuse _ : Agrees text (Stands text) _ _).bind_error
  · exact hmore begin hbegin

/-- The timestamps behind those that have been read are read one by one. -/
theorem Stands.readTimestampsAfter {s : List Char} {cursor : Cursor} (h : Stands text s cursor)
    (times : List TimeToken) :
    Agrees text (Stands text)
      ((Scan.loop Scan.nextTimestamp Scan.nextTimestamp_onward times :
        Scan text (List TimeToken)).run cursor)
      ((Config.readTimestamps times.isEmpty s).map fun found => (times ++ found.1, found.2)) := by
  rw [Scan.run_loop, Scan.nextTimestamp, Scan.run_bind_assoc, Scan.run_peek_bind,
    h.ahead.any_head? isBytewise_isDigit]
  by_cases digit : s.head?.any Char.isDigit = true
  · rw [readTimestamps_step _ digit, map_bind, if_pos digit, Scan.run_bind_assoc]
    refine (h.readTimestamp digit).bind fun clock rest middle hclock hmiddle => ?_
    have : (Config.skipBlank rest).length < s.length := by
      obtain ⟨d, tail, rfl, hd⟩ := exists_cons_of_digit digit
      exact length_lt_of_readTimestamp hd hclock
    have hafter := hmiddle.near.afterTimestamp
      fun begin (hbegin : Stands text _ begin) =>
        hbegin.readTimestampsAfter (times ++ [.timestamp clock])
    -- Whether the timestamp is the only one is told by its list here, and by a flag there.
    have hlone : (times ++ [TimeToken.timestamp clock]).length = 1 ↔ times.isEmpty = true := by
      cases times <;> simp
    have hsome : (times ++ [TimeToken.timestamp clock]).isEmpty = false := by simp
    simp only [hlone, hsome, List.append_assoc, List.singleton_append] at hafter
    simp only
    split
    · next hsign =>
      rw [if_pos hsign] at hafter
      split
      · next hempty =>
        rw [if_pos hempty] at hafter
        rw [map_map]
        exact hafter
      · next hempty =>
        rw [if_neg hempty] at hafter
        exact hafter
    · next hsign =>
      rw [if_neg hsign] at hafter
      rw [map_map]
      exact hafter
  · rw [if_neg digit, readTimestamps_end]
    · simp only [Except.map, List.append_nil]
      exact .ok h
    · intro c hc
      rw [Option.mem_def.1 hc] at digit
      simpa using digit
termination_by s.length

theorem StandsNear.readTimes (h : StandsNear text s cursor) :
    Agrees text (Stands text) ((Scan.readTimes : Scan text (List TimeToken)).run cursor)
      (Config.readTimes s) := by
  refine h.skipBlank.bind_ok fun begin hbegin => ?_
  simp only [Scan.run_peek_bind, hbegin.ahead.byte?_eq_some_iff (c := '@') (by decide),
    Config.readTimes]
  split
  · next hsign =>
    obtain ⟨rest, hrest⟩ := List.head?_eq_some_iff.1 hsign
    rw [hrest] at hbegin ⊢
    refine (hbegin.pass (by decide)).bind_ok fun _ hpassed => ?_
    exact hpassed.near.readReference.map (f := ([TimeToken.timestamp .zero, ·]))
  · have hread := hbegin.readTimestampsAfter []
    rw [List.isEmpty_nil] at hread
    cases htimes : Config.readTimestamps true (Config.skipBlank s) <;> rwa [htimes] at hread

theorem StandsNear.readGroup (h : StandsNear text s cursor) :
    Agrees text (Stands text) ((Scan.readGroup : Scan text (List InputSpec)).run cursor)
      (Config.readGroup s) := by
  -- The reader of characters as a chain of steps, one for each reader with a cursor.
  have hstep : Config.readGroup s =
      ((Config.expect '[' s).map fun rest => ((), rest)).bind fun opened =>
        (Config.readInputs opened.2).bind fun inputs =>
          ((Config.expect ']' inputs.2).map fun rest => ((), rest)).bind fun closed =>
            (Config.readTimes closed.2).bind fun times =>
              .ok (inputs.1.map fun i => ⟨i.kind, i.source, i.index, times.1⟩, times.2) := by
    simp only [Config.readGroup, bind]
    cases Config.expect '[' s with
    | error stop => rfl
    | ok opened =>
      simp only [Except.bind, Except.map]
      cases Config.readInputs opened with
      | error stop => rfl
      | ok inputs =>
        simp only
        cases Config.expect ']' inputs.2 <;> rfl
  rw [hstep]
  refine (h.expect (by decide)).bind fun _ _ _ _ hopened => ?_
  refine hopened.near.readInputs.bind fun inputs _ _ _ hinputs => ?_
  refine (hinputs.expect (by decide)).bind fun _ _ _ _ hclosed => ?_
  exact hclosed.near.readTimes.bind fun times _ _ _ htimes => .ok htimes

/-- The bracket groups behind those that have been read are read one by one up to the end. -/
theorem StandsNear.readGroupsAfter {s : List Char} {cursor : Cursor} (h : StandsNear text s cursor)
    (specs : List InputSpec) :
    Agrees text (Stands text)
      ((Scan.loop Scan.nextGroup Scan.nextGroup_onward specs :
        Scan text (List InputSpec)).run cursor)
      ((Config.readGroups s).map fun more => (specs ++ more, [])) := by
  rw [Scan.run_loop, Scan.nextGroup, Scan.run_bind_assoc]
  refine h.skipBlank.bind_ok fun begin hbegin => ?_
  rw [Scan.run_bind_assoc, Scan.run_peek_bind]
  cases hs : Config.skipBlank s with
  | nil =>
    rw [hs] at hbegin
    rw [hbegin.ahead.byte?_eq_none_iff.2 rfl, readGroups_end hs]
    simp only [Except.map, List.append_nil]
    exact .ok hbegin
  | cons c tail =>
    rw [hs] at hbegin
    by_cases hc : c = '['
    · subst hc
      rw [(hbegin.ahead.byte?_eq_some_iff (by decide)).2 rfl, readGroups_open hs, map_bind]
      simp only [if_true, Scan.run_bind_assoc]
      refine hbegin.near.readGroup.bind fun group rest middle hgroup hmiddle => ?_
      have : rest.length < s.length :=
        Nat.lt_of_lt_of_le (length_lt_of_readGroup hgroup) (hs ▸ (skipBlank_suffix s).length_le)
      rw [map_map]
      have hothers := hmiddle.near.readGroupsAfter (specs ++ group)
      simp only [List.append_assoc] at hothers
      exact hothers
    · obtain ⟨d, hd⟩ : ∃ d, byte? text begin.offset = some d :=
        Option.ne_none_iff_exists'.1 fun hnone => by
          cases hbegin.ahead.byte?_eq_none_iff.1 hnone
      have hother : d ≠ '[' := by
        rintro rfl
        exact hc (Option.some.inj ((hbegin.ahead.byte?_eq_some_iff (by decide)).1 hd))
      rw [hd, readGroups_other hs hc]
      simp only [if_neg hother]
      exact (hbegin.refuse _ : Agrees text (Stands text) _ _).bind_error
termination_by s.length

end Agreement

/-- Wherever text is cut out of a configuration, both ends of the cut lie between characters. So the
reading by bytes gives what is read by characters, and no text makes it fail in another way. -/
theorem cuts_fit (text : String) :
    (∀ cut ∈ (scan text).cuts, cut.Fits text) ∧
    (∀ cut, (scan text).answer ≠ .error (.divided cut)) ∧
    (scan text).answer = (parse text).mapError Halt.refused := by
  have hbegin : Stands text text.toList ⟨0, []⟩ := ⟨ahead_start text, by simp⟩
  have hread := hbegin.near.readGroupsAfter []
  simp only [scan, parse, Scan.readGroups]
  generalize Scan.run _ _ = outcome at hread
  cases hgroups : readGroups text.toList with
  | ok specs =>
    rw [hgroups] at hread
    cases hread with
    | ok there => exact ⟨there.fits, by simp, rfl⟩
  | error stop =>
    rw [hgroups] at hread
    cases hread with
    | error fits => exact ⟨fits, by simp, rfl⟩

/-- The kind and the file name are cut out, then the missing kind, and then what shows the fault: all
before it, its line up to it and all from it on. -/
example : (scan "#é\n[a:x:é").cuts =
    [⟨5, 6⟩, ⟨7, 8⟩, ⟨9, 9⟩, ⟨0, 9⟩, ⟨4, 9⟩, ⟨9, 11⟩] := by
  decide +kernel

end EpisodeCut.Config
