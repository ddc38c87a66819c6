import EpisodeCut.Proofs.Json.Strings

/-!
# Values that are passed over

Any value is passed over up to its end, however deeply arrays and objects are nested in it
(`skipValue_value`). The induction is over the value: within an array or object, each item leaves
the stack of open brackets as it was (`skip_items`).
-/

set_option autoImplicit false

namespace EpisodeCut.Json

open Text

variable {w s item rest next : Bytes} {bracket : Bracket} {stack : List Bracket} {c : Char}

/-! ## Steps -/

theorem skip_scalar (hopen : (next? s).bind opening? = none) (h : skipScalar s = .ok ((), rest)) :
    skip .value stack s = skip .tail stack rest := by
  rw [skip]
  split
  · next found hfound =>
    rw [hopen] at hfound
    cases hfound
  · split
    · next refusal hrefused =>
      rw [h] at hrefused
      cases hrefused
    · next later hread =>
      rw [h] at hread
      cases hread
      rfl

theorem skip_open (hopen : (next? s).bind opening? = some bracket)
    (hnext : next? (afterNext s) = some c) :
    skip .value stack s =
      if c = bracket.closing then skip .tail stack (afterNext (afterNext s))
      else skip bracket.pending (bracket :: stack) (afterNext s) := by
  rw [skip]
  split
  · next found hfound =>
    rw [hopen] at hfound
    cases hfound
    split
    · next hnone =>
      rw [hnext] at hnone
      cases hnone
    · next d hd =>
      rw [hnext] at hd
      cases hd
      rfl
  · next hnone =>
    rw [hopen] at hnone
    cases hnone

theorem skip_member (h : skipKey s = .ok ((), rest)) :
    skip .member stack s = skip .value stack rest := by
  conv_lhs => rw [skip]
  split
  · next refusal hrefused =>
    rw [h] at hrefused
    cases hrefused
  · next later hread =>
    rw [h] at hread
    cases hread
    rfl

theorem skip_tail (h : next? s = some c) :
    skip .tail (bracket :: stack) s =
      if c = ',' then skip bracket.pending (bracket :: stack) (afterNext s)
      else if c = bracket.closing then skip .tail stack (afterNext s)
      else .error ⟨bracket.itemFault, afterNext s⟩ := by
  rw [skip]
  split
  · next hnone =>
    rw [h] at hnone
    cases hnone
  · next d hd =>
    rw [h] at hd
    cases hd
    rfl

theorem next?_close (bracket : Bracket) (s : Bytes) :
    next? (bracket.closeByte :: s) = some bracket.closing := by
  cases bracket <;> rfl

theorem afterNext_close (bracket : Bracket) (s : Bytes) :
    afterNext (bracket.closeByte :: s) = s := by
  cases bracket <;> rfl

theorem skip_comma (blank : IsBlank w) (s : Bytes) :
    skip .tail (bracket :: stack) (w ++ 0x2C :: s) =
      skip bracket.pending (bracket :: stack) s := by
  have hnext : next? (w ++ 0x2C :: s) = some ',' := next?_blank blank _
  rw [skip_tail hnext, if_pos rfl, afterNext_blank blank]
  rfl

theorem skip_close (blank : IsBlank w) (s : Bytes) :
    skip .tail (bracket :: stack) (w ++ bracket.closeByte :: s) = skip .tail stack s := by
  have hnext : next? (w ++ bracket.closeByte :: s) = some bracket.closing :=
    (next?_blank blank _).trans (next?_close bracket s)
  have hcomma : bracket.closing ≠ ',' := by
    cases bracket <;> decide
  rw [skip_tail hnext, if_neg hcomma, if_pos rfl, afterNext_blank blank, afterNext_close]

/-! ## Items -/

/-- What an item may begin with. -/
def Begins (s : Bytes) : Prop :=
  ∃ b t, s = b :: t ∧ isSpace b = false ∧ b ≠ 0x2C ∧ b ≠ 0x5D ∧ b ≠ 0x7D

/-- An item is passed over wherever it stands. -/
def Passes (pending : Pending) (item : Bytes) : Prop :=
  ∀ {w rest : Bytes} (stack : List Bracket), IsBlank w → Ends rest →
    skip pending stack (w ++ (item ++ rest)) = skip .tail stack rest

/-- Items are passed over up to the bracket that closes them. -/
theorem skip_items {items : List Bytes} (h : ItemsText items s)
    (passes : ∀ item ∈ items, Passes bracket.pending item) (stack : List Bracket) (rest : Bytes) :
    skip bracket.pending (bracket :: stack) (s ++ bracket.closeByte :: rest) =
      skip .tail stack rest := by
  -- The bracket stays on the stack while items are passed, up to the one that closes it.
  induction h with
  | last hbefore hafter =>
    have hitem := passes _ List.mem_cons_self (bracket :: stack) hbefore
      ((ends_close bracket rest).blank hafter)
    simp only [List.append_assoc]
    rw [hitem, skip_close hafter]
  | @cons before item after items t hbefore hafter more ih =>
    have hitem := passes item List.mem_cons_self (bracket :: stack) hbefore
      ((ends_comma (t ++ bracket.closeByte :: rest)).blank hafter)
    simp only [List.append_assoc, List.cons_append]
    rw [hitem, skip_comma hafter]
    exact ih fun other hother => passes other (List.mem_cons_of_mem item hother)

theorem Begins.append (begins : Begins s) (rest : Bytes) : Begins (s ++ rest) := by
  obtain ⟨b, t, rfl, hb⟩ := begins
  exact ⟨b, t ++ rest, rfl, hb⟩

/-- What begins an item is neither a comma nor a bracket that closes. -/
theorem Begins.next? (begins : Begins s) (blank : IsBlank w) :
    ∃ c, Json.next? (w ++ s) = some c ∧ c ≠ ',' ∧ c ≠ ']' ∧ c ≠ '\x7d' := by
  obtain ⟨b, t, rfl, hspace, hcomma, harray, hobject⟩ := begins
  refine ⟨Char.ofUInt8 b, next?_solid blank hspace t, ?_, ?_, ?_⟩
  · exact fun h => hcomma (ofUInt8_inj.1 h)
  · exact fun h => harray (ofUInt8_inj.1 h)
  · exact fun h => hobject (ofUInt8_inj.1 h)

/-- Items begin like the first of them. -/
theorem ItemsText.begins {items : List Bytes} (h : ItemsText items s)
    (begins : ∀ item ∈ items, Begins item) : ∃ w t, s = w ++ t ∧ IsBlank w ∧ Begins t := by
  cases h with
  | last hbefore hafter =>
    exact ⟨_, _, rfl, hbefore, (begins _ List.mem_cons_self).append _⟩
  | cons hbefore hafter more =>
    exact ⟨_, _, rfl, hbefore, (begins _ List.mem_cons_self).append _⟩

theorem next?_open (blank : IsBlank w) (s : Bytes) :
    (next? (w ++ bracket.openByte :: s)).bind opening? = some bracket := by
  rw [next?_blank blank]
  cases bracket <;> rfl

theorem afterNext_open (bracket : Bracket) (blank : IsBlank w) (s : Bytes) :
    afterNext (w ++ bracket.openByte :: s) = s := by
  rw [afterNext_blank blank]
  cases bracket <;> rfl

/-- An array or object is passed over if its items are. -/
theorem passes_bracket {items : List Bytes} (h : BracketText bracket items s)
    (begins : ∀ item ∈ items, Begins item) (passes : ∀ item ∈ items, Passes bracket.pending item) :
    Passes .value s := by
  intro w rest stack blank _
  obtain ⟨inner, rfl, hinner⟩ := h.exists_inner
  simp only [List.cons_append, List.append_assoc, List.nil_append]
  have hafter := afterNext_open bracket blank (inner ++ bracket.closeByte :: rest)
  rcases hinner with ⟨-, hblank⟩ | hitems
  · have hclose : next? (inner ++ bracket.closeByte :: rest) = some bracket.closing :=
      (next?_blank hblank _).trans (next?_close bracket rest)
    rw [skip_open (next?_open blank _) (hafter ▸ hclose), if_pos rfl, hafter,
      afterNext_blank hblank, afterNext_close]
  · -- What comes first in the brackets begins an item, so it does not close them.
    obtain ⟨v, t, rfl, hv, ht⟩ := hitems.begins begins
    obtain ⟨c, hc, -, harray, hobject⟩ := (ht.append (bracket.closeByte :: rest)).next? hv
    rw [← List.append_assoc] at hc
    have hclosing : c ≠ bracket.closing := by
      cases bracket with
      | array => exact harray
      | object => exact hobject
    rw [skip_open (next?_open blank _) (hafter ▸ hc), if_neg hclosing, hafter]
    exact skip_items hitems passes stack rest

/-! ## Scalars -/

theorem spell_letters {word : List Char} (ascii : word.all fun c => c.toNat < 0x80)
    (rest : Bytes) : spell word (word.map Char.toUInt8 ++ rest) = .ok ((), rest) := by
  induction word with
  | nil => rfl
  | cons c letters ih =>
    obtain ⟨hc, hletters⟩ := Bool.and_eq_true_iff.1 ascii
    rw [List.map_cons, List.cons_append, spell, if_pos (ofUInt8_toUInt8 (of_decide_eq_true hc)),
      ih hletters]

theorem skipScalar_word {word : String} (h : word ∈ ["null", "true", "false"])
    (blank : IsBlank w) (rest : Bytes) :
    skipScalar (w ++ (ascii word ++ rest)) = .ok ((), rest) := by
  have hafter {letter : UInt8} (hletter : isSpace letter = false) (s : Bytes) :
      afterNext (w ++ letter :: s) = s :=
    (afterNext_blank blank _).trans (afterNext_cons hletter s)
  have hnext {letter : UInt8} (hletter : isSpace letter = false) (s : Bytes) :
      next? (w ++ letter :: s) = some (Char.ofUInt8 letter) := next?_solid blank hletter s
  simp only [List.mem_cons, List.not_mem_nil, or_false] at h
  rcases h with rfl | rfl | rfl
  · have hword : ascii "null" ++ rest = 0x6E :: (ascii "ull" ++ rest) := rfl
    rw [hword, skipScalar, hnext rfl, hafter rfl]
    exact spell_letters rfl rest
  · have hword : ascii "true" ++ rest = 0x74 :: (ascii "rue" ++ rest) := rfl
    rw [hword, skipScalar, hnext rfl, hafter rfl]
    exact spell_letters rfl rest
  · have hword : ascii "false" ++ rest = 0x66 :: (ascii "alse" ++ rest) := rfl
    rw [hword, skipScalar, hnext rfl, hafter rfl]
    exact spell_letters rfl rest

theorem skipScalar_string (raw : RawText s) (blank : IsBlank w) (rest : Bytes) :
    skipScalar (w ++ (0x22 :: (s ++ 0x22 :: rest))) = .ok ((), rest) := by
  have hnext : next? (w ++ (0x22 :: (s ++ 0x22 :: rest))) = some '\x22' := next?_blank blank _
  have hafter : afterNext (w ++ (0x22 :: (s ++ 0x22 :: rest))) = s ++ 0x22 :: rest :=
    afterNext_blank blank _
  rw [skipScalar, hnext]
  simp only [hafter]
  exact skipText_raw raw rest

theorem skipScalar_minus (number : UnsignedText s) (blank : IsBlank w) (ends : Ends rest) :
    skipScalar (w ++ (0x2D :: (s ++ rest))) = .ok ((), rest) := by
  have hnext : next? (w ++ (0x2D :: (s ++ rest))) = some '-' := next?_blank blank _
  have hafter : afterNext (w ++ (0x2D :: (s ++ rest))) = s ++ rest := afterNext_blank blank _
  rw [skipScalar, hnext]
  simp only [hafter]
  exact skipNumber_unsigned number ends

theorem UnsignedText.exists_digit (number : UnsignedText s) :
    ∃ b t, s = b :: t ∧ isDigit b = true := by
  cases number with
  | parts hwhole hfraction hpower =>
    obtain ⟨b, t, rfl⟩ := List.exists_cons_of_ne_nil hwhole.nonempty
    exact ⟨b, _, rfl, hwhole.digits b List.mem_cons_self⟩

theorem isSpace_of_isDigit {b : UInt8} (h : isDigit b = true) : isSpace b = false := by
  cases hspace : isSpace b with
  | false => rfl
  | true =>
    rcases eq_of_isSpace hspace with rfl | rfl | rfl | rfl <;> cases h

theorem skipScalar_digit (number : UnsignedText s) (blank : IsBlank w) (ends : Ends rest) :
    skipScalar (w ++ (s ++ rest)) = .ok ((), rest) := by
  obtain ⟨b, t, hs, hdigit⟩ := number.exists_digit
  have hsolid := isSpace_of_isDigit hdigit
  have hnext : next? (w ++ (s ++ rest)) = some (Char.ofUInt8 b) := by
    rw [next?_blank blank, hs]
    exact next?_cons hsolid _
  have hskip : skipSpace (w ++ (s ++ rest)) = s ++ rest := by
    rw [skipSpace_blank blank, hs]
    exact skipSpace_cons hsolid _
  have hread := skipNumber_unsigned number ends
  have hchar : (Char.ofUInt8 b).isDigit = true := hdigit
  unfold skipScalar
  rw [hnext, hskip]
  split
  case h_1 h => cases h
  case h_7 c _ _ _ _ _ h => rw [← Option.some.inj h, if_pos hchar, hread]
  all_goals
    next h =>
      rw [Option.some.inj h] at hchar
      cases hchar

theorem passes_scalar (begins : Begins s) (hopen : ∀ c, head? s = some c → opening? c = none)
    (h : ∀ {w rest : Bytes}, IsBlank w → Ends rest →
      skipScalar (w ++ (s ++ rest)) = .ok ((), rest)) : Passes .value s := by
  intro w rest stack blank ends
  obtain ⟨b, t, rfl, hspace, -⟩ := begins
  have hnext : next? (w ++ (b :: t ++ rest)) = some (Char.ofUInt8 b) :=
    next?_solid blank hspace _
  exact skip_scalar (by rw [hnext]; exact hopen _ rfl) (h blank ends)

/-! ## Values -/

theorem BracketText.begins {items : List Bytes} (h : BracketText bracket items s) : Begins s := by
  obtain ⟨inner, rfl, -⟩ := h.exists_inner
  cases bracket <;> exact ⟨_, _, rfl, by decide⟩

theorem begins_of_isDigit {b : UInt8} (h : isDigit b = true) (rest : Bytes) :
    Begins (b :: rest) := by
  refine ⟨b, rest, rfl, isSpace_of_isDigit h, ?_, ?_, ?_⟩ <;>
  · rintro rfl
    cases h

theorem ValueText.begins (value : ValueText s) : Begins s := by
  cases value with
  | word h =>
    simp only [List.mem_cons, List.not_mem_nil, or_false] at h
    rcases h with rfl | rfl | rfl <;> exact ⟨_, _, rfl, by decide⟩
  | number h =>
    cases h with
    | plain h =>
      obtain ⟨b, t, rfl, hdigit⟩ := h.exists_digit
      exact begins_of_isDigit hdigit t
    | minus h => exact ⟨_, _, rfl, by decide⟩
  | string h =>
    cases h with
    | quoted raw => exact ⟨_, _, rfl, by decide⟩
  | array values h => exact h.begins
  | object keys values h =>
    obtain ⟨items, -, h⟩ := h
    exact h.begins

theorem opening?_of_isDigit {b : UInt8} (h : isDigit b = true) :
    opening? (Char.ofUInt8 b) = none := by
  have hchar : (Char.ofUInt8 b).isDigit = true := h
  have harray : Char.ofUInt8 b ≠ '[' := by
    intro heq
    rw [heq] at hchar
    cases hchar
  have hobject : Char.ofUInt8 b ≠ '\x7b' := by
    intro heq
    rw [heq] at hchar
    cases hchar
  rw [opening?, if_neg harray, if_neg hobject]

theorem passes_word {word : String} (h : word ∈ ["null", "true", "false"]) :
    Passes .value (ascii word) := by
  refine passes_scalar (ValueText.word h).begins ?_ fun blank _ => skipScalar_word h blank _
  simp only [List.mem_cons, List.not_mem_nil, or_false] at h
  rintro c hc
  rcases h with rfl | rfl | rfl
  · cases hc
    rfl
  · cases hc
    rfl
  · cases hc
    rfl

theorem passes_number (number : NumberText s) : Passes .value s := by
  refine passes_scalar (ValueText.number number).begins ?_ ?_
  · rintro c hc
    cases number with
    | plain h =>
      obtain ⟨b, t, rfl, hdigit⟩ := h.exists_digit
      cases hc
      exact opening?_of_isDigit hdigit
    | minus h =>
      cases hc
      rfl
  · intro w rest blank ends
    cases number with
    | plain h => exact skipScalar_digit h blank ends
    | minus h => exact skipScalar_minus h blank ends

theorem passes_string (string : RawString s) : Passes .value s := by
  refine passes_scalar (ValueText.string string).begins ?_ ?_
  · rintro c hc
    cases string with
    | quoted raw =>
      cases hc
      rfl
  · intro w rest blank _
    cases string with
    | quoted raw =>
      simp only [List.cons_append, List.append_assoc, List.nil_append]
      exact skipScalar_string raw blank rest

theorem readColon_blank (blank : IsBlank w) (rest : Bytes) :
    readColon (w ++ 0x3A :: rest) = .ok ((), rest) := by
  have hnext : next? (w ++ 0x3A :: rest) = some ':' := next?_blank blank _
  have hafter : afterNext (w ++ 0x3A :: rest) = rest := afterNext_blank blank _
  rw [readColon, hnext]
  simp only [if_true, hafter]

theorem skipKey_raw {key before : Bytes} (string : RawString key) (blank : IsBlank w)
    (hbefore : IsBlank before) (rest : Bytes) :
    skipKey (w ++ (key ++ (before ++ 0x3A :: rest))) = .ok ((), rest) := by
  cases string with
  | @quoted s raw =>
    simp only [List.cons_append, List.append_assoc, List.nil_append]
    have hnext : next? (w ++ 0x22 :: (s ++ 0x22 :: (before ++ 0x3A :: rest))) = some '\x22' :=
      next?_blank blank _
    have hafter : afterNext (w ++ 0x22 :: (s ++ 0x22 :: (before ++ 0x3A :: rest))) =
        s ++ 0x22 :: (before ++ 0x3A :: rest) := afterNext_blank blank _
    rw [skipKey, hnext]
    simp only [if_true, hafter, skipText_raw raw, bind, Except.bind]
    exact readColon_blank hbefore rest

theorem passes_member {member : Bytes × Bytes} (h : MemberText member item)
    (key : RawString member.1) (value : Passes .value member.2) : Passes .member item := by
  intro w rest stack blank ends
  cases h with
  | @pair name before after text hbefore hafter =>
    simp only [List.append_assoc, List.cons_append]
    rw [skip_member (skipKey_raw key blank hbefore _)]
    exact value stack hafter ends

theorem MemberText.begins {member : Bytes × Bytes} (h : MemberText member item)
    (key : RawString member.1) : Begins item := by
  cases h with
  | pair hbefore hafter => exact (ValueText.string key).begins.append _

/-- Each item of an object is one of the members. -/
theorem exists_member {members : List (Bytes × Bytes)} {items : List Bytes}
    (h : List.Forall₂ MemberText members items) (hitem : item ∈ items) :
    ∃ member ∈ members, MemberText member item := by
  induction h with
  | nil => cases hitem
  | cons head _ ih =>
    rcases List.mem_cons.1 hitem with rfl | hitem
    · exact ⟨_, List.mem_cons_self, head⟩
    · obtain ⟨member, hmember, htext⟩ := ih hitem
      exact ⟨member, List.mem_cons_of_mem _ hmember, htext⟩

/-- Any value is passed over. -/
theorem passes_value (value : ValueText s) : Passes .value s := by
  -- What stands in an array or object is passed over with the bracket still open.
  induction value with
  | word h => exact passes_word h
  | number h => exact passes_number h
  | string h => exact passes_string h
  | array values h ih => exact passes_bracket h (fun item hitem => (values item hitem).begins) ih
  | object keys values h ih =>
    obtain ⟨items, hitems, h⟩ := h
    refine passes_bracket h (fun item hitem => ?_) fun item hitem => ?_
    · obtain ⟨member, hmember, htext⟩ := exists_member hitems hitem
      exact htext.begins (keys member hmember)
    · obtain ⟨member, hmember, htext⟩ := exists_member hitems hitem
      exact passes_member htext (keys member hmember) (ih member hmember)

theorem skipValue_value (value : ValueText s) (blank : IsBlank w) (ends : Ends rest) :
    skipValue (w ++ (s ++ rest)) = .ok ((), rest) := by
  rw [skipValue, passes_value value [] blank ends, skip]

end EpisodeCut.Json
