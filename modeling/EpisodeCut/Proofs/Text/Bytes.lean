import EpisodeCut.Proofs.Text.Position

/-!
# Texts by bytes

A text can be looked at byte by byte, at offsets that lie inside a character as well. A class that
treats all characters beyond ASCII alike shows in every single byte (`IsBytewise`). So whoever passes
the bytes of such a class from a boundary of characters on stops at a boundary (`Ahead.passWhile_eq`),
however many offsets inside characters lie on the way. Text can be cut out between two boundaries and
nowhere else (`cut?`, `Ahead.cut?_eq`).
-/

set_option autoImplicit false

namespace EpisodeCut.Text

/-! ## Characters and bytes -/

section Characters

variable {c : Char} {b : UInt8} {p : Char → Bool}

theorem toNat_toUInt8 (ascii : c.toNat < 0x80) : c.toUInt8.toNat = c.toNat := by
  have hmod : c.toUInt8.toNat = c.toNat % 256 := UInt32.toNat_toUInt8 c.val
  rw [hmod, Nat.mod_eq_of_lt (Nat.lt_trans ascii (by decide))]

theorem ofUInt8_toUInt8 (ascii : c.toNat < 0x80) : Char.ofUInt8 c.toUInt8 = c := by
  refine Char.ext ?_
  have hval : (Char.ofUInt8 c.toUInt8).val = c.val.toUInt8.toUInt32 := rfl
  have hsmall : c.val.toNat < 256 := Nat.lt_trans ascii (by decide)
  rw [hval, UInt32.toUInt32_toUInt8, ← UInt32.toNat_inj, UInt32.toNat_mod]
  exact Nat.mod_eq_of_lt hsmall

theorem utf8EncodeChar_ascii (ascii : c.toNat < 0x80) :
    String.utf8EncodeChar c = [c.toUInt8] := by
  refine String.utf8EncodeChar_eq_singleton ?_
  rw [Char.utf8Size_eq_one_iff, UInt32.le_iff_toNat_le]
  exact Nat.le_of_lt_succ ascii

/-- All bytes of a character that is not ASCII have their highest digit set. -/
theorem le_of_mem_utf8EncodeChar (h : 0x80 ≤ c.toNat) (hb : b ∈ String.utf8EncodeChar c) :
    0x80 ≤ b := by
  -- Each byte is put together with a constant that has the digit set.
  have hor (x y : UInt8) (hy : 0x80 ≤ y) : 0x80 ≤ x ||| y := by
    rw [UInt8.le_iff_toNat_le] at hy ⊢
    rw [UInt8.toNat_or]
    exact Nat.le_trans hy Nat.right_le_or
  rw [String.utf8EncodeChar_eq_utf8EncodeCharFast, String.utf8EncodeCharFast] at hb
  split at hb
  · next hsmall =>
    have : c.toNat ≤ 0x7F := UInt32.le_iff_toNat_le.1 hsmall
    omega
  · split at hb
    · simp only [List.mem_cons, List.not_mem_nil, or_false] at hb
      rcases hb with rfl | rfl <;> exact hor _ _ (by decide)
    · split at hb
      · simp only [List.mem_cons, List.not_mem_nil, or_false] at hb
        rcases hb with rfl | rfl | rfl <;> exact hor _ _ (by decide)
      · simp only [List.mem_cons, List.not_mem_nil, or_false] at hb
        rcases hb with rfl | rfl | rfl | rfl <;> exact hor _ _ (by decide)

/-- Every byte of a character tells whether the character belongs to the class `p`. -/
def IsBytewise (p : Char → Bool) : Prop :=
  ∀ c, ∀ b ∈ String.utf8EncodeChar c, p (Char.ofUInt8 b) = p c

theorem isBytewise_of_alike {beyond : Bool} (alike : ∀ c : Char, 0x80 ≤ c.toNat → p c = beyond) :
    IsBytewise p := by
  intro c b hb
  by_cases hascii : c.toNat < 0x80
  · rw [utf8EncodeChar_ascii hascii, List.mem_singleton] at hb
    rw [hb, ofUInt8_toUInt8 hascii]
  · have hc : 0x80 ≤ c.toNat := Nat.le_of_not_lt hascii
    have hbyte : 0x80 ≤ (Char.ofUInt8 b).toNat := UInt8.le_iff_toNat_le.1 (le_of_mem_utf8EncodeChar hc hb)
    rw [alike _ hbyte, alike c hc]

theorem isBytewise_of_ascii (ascii : ∀ c, p c = true → c.toNat < 0x80) : IsBytewise p := by
  refine isBytewise_of_alike fun c hc => Bool.eq_false_iff.2 fun h => ?_
  exact Nat.not_lt.2 hc (ascii c h)

end Characters

/-! ## Offsets -/

/-- The byte at an offset, as the character with its number. -/
def byte? (text : String) (offset : Nat) : Option Char :=
  text.toByteArray[offset]?.map Char.ofUInt8

/-- At an offset no character is divided, and `rest` is ahead. -/
def Ahead (text : String) (offset : Nat) (rest : List Char) : Prop :=
  ∃ before, text.toList = before ++ rest ∧ offset = String.utf8Len before

section Offsets

variable {text : String} {offset : Nat} {piece rest : List Char} {p : Char → Bool}

theorem lt_of_byte? {c : Char} (h : byte? text offset = some c) : offset < text.utf8ByteSize := by
  obtain ⟨b, hb, -⟩ := Option.map_eq_some_iff.1 h
  by_contra hlarge
  rw [getElem?_neg text.toByteArray offset hlarge] at hb
  cases hb

theorem length_encoded (s : List Char) :
    (s.flatMap String.utf8EncodeChar).length = String.utf8Len s := by
  induction s with
  | nil => rfl
  | cons c s ih =>
    rw [List.flatMap_cons, List.length_append, ih, String.length_utf8EncodeChar,
      String.utf8Len_cons, Nat.add_comm]

theorem toByteArray_eq (text : String) : text.toByteArray = text.toList.utf8Encode := by
  rw [← String.toByteArray_ofList, String.ofList_toList]

theorem utf8Len_toList (text : String) : String.utf8Len text.toList = text.utf8ByteSize := by
  rw [← String.utf8ByteSize_ofList, String.ofList_toList]

theorem ahead_start (text : String) : Ahead text 0 text.toList :=
  ⟨[], rfl, rfl⟩

theorem Ahead.mem_boundaries (h : Ahead text offset rest) : offset ∈ Position.boundaries text :=
  let ⟨before, htext, hoffset⟩ := h
  Position.mem_boundaries_iff.2 ⟨before, rest, htext, hoffset⟩

/-- Whole characters lead from one boundary to another. -/
theorem Ahead.append (h : Ahead text offset (piece ++ rest)) :
    Ahead text (offset + String.utf8Len piece) rest := by
  obtain ⟨before, htext, rfl⟩ := h
  exact ⟨before ++ piece, by rw [htext, List.append_assoc], (String.utf8Len_append _ _).symm⟩

theorem Ahead.tail {c : Char} (h : Ahead text offset (c :: rest)) (ascii : c.toNat < 0x80) :
    Ahead text (offset + 1) rest := by
  have hsize : c.utf8Size = 1 := by
    rw [← String.length_utf8EncodeChar, utf8EncodeChar_ascii ascii, List.length_singleton]
  have hlength : String.utf8Len [c] = 1 := by rw [String.utf8Len_cons, hsize]; rfl
  rw [← hlength]
  exact Ahead.append h

theorem Ahead.add_utf8Len (h : Ahead text offset rest) :
    offset + String.utf8Len rest = text.utf8ByteSize := by
  obtain ⟨before, htext, rfl⟩ := h
  rw [← String.utf8Len_append, ← htext, utf8Len_toList]

/-- The bytes ahead are those of the characters ahead. -/
theorem Ahead.byte?_add (h : Ahead text offset rest) (k : Nat) :
    byte? text (offset + k) =
      (rest.flatMap String.utf8EncodeChar)[k]?.map Char.ofUInt8 := by
  obtain ⟨before, htext, rfl⟩ := h
  have hbytes (bytes : ByteArray) (n : Nat) : bytes[n]? = bytes.data.toList[n]? := by
    simp [getElem?_def, ByteArray.getElem_eq_getElem_data]
  rw [byte?, hbytes, toByteArray_eq, htext, List.utf8Encode, List.toList_data_toByteArray,
    List.flatMap_append, List.getElem?_append_right (by rw [length_encoded]; omega), length_encoded,
    Nat.add_sub_cancel_left]

/-- Whether a character of a class is ahead shows in the next byte. -/
theorem Ahead.map_byte? (h : Ahead text offset rest) (bytewise : IsBytewise p) :
    (byte? text offset).map p = rest.head?.map p := by
  have hbyte := h.byte?_add 0
  rw [Nat.add_zero] at hbyte
  rw [hbyte]
  cases rest with
  | nil => rfl
  | cons c rest =>
    obtain ⟨b, more, hencoded⟩ :=
      List.exists_cons_of_ne_nil (String.utf8EncodeChar_ne_nil (c := c))
    have hb : b ∈ String.utf8EncodeChar c := hencoded ▸ List.mem_cons_self
    rw [List.flatMap_cons, hencoded]
    exact congrArg some (bytewise c b hb)

theorem Ahead.byte?_eq_none_iff (h : Ahead text offset rest) :
    byte? text offset = none ↔ rest = [] := by
  have hbytewise : IsBytewise fun _ => true := fun _ _ _ => rfl
  rw [← Option.map_eq_none_iff, h.map_byte? hbytewise, Option.map_eq_none_iff,
    List.head?_eq_none_iff]

/-- A byte is the first one of a character. -/
theorem Ahead.exists_cons (h : Ahead text offset rest) {c : Char} (hc : byte? text offset = some c) :
    ∃ d tail, rest = d :: tail := by
  apply List.exists_cons_of_ne_nil
  intro hend
  rw [h.byte?_eq_none_iff.2 hend] at hc
  cases hc

/-- The next byte and the character ahead belong to the same classes. -/
theorem Ahead.class_eq {c d : Char} (h : Ahead text offset (d :: rest))
    (hc : byte? text offset = some c) (bytewise : IsBytewise p) : p c = p d := by
  have hmap := h.map_byte? bytewise
  rw [hc] at hmap
  exact Option.some.inj hmap

theorem Ahead.any_head? (h : Ahead text offset rest) (bytewise : IsBytewise p) :
    (byte? text offset).any p = rest.head?.any p := by
  have hany (c? : Option Char) : c?.any p = (c?.map p).any id := by rw [Option.any_map]; rfl
  rw [hany, h.map_byte? bytewise, ← hany]

/-- An ASCII character is ahead if it is the next byte. -/
theorem Ahead.byte?_eq_some_iff (h : Ahead text offset rest) {c : Char} (ascii : c.toNat < 0x80) :
    byte? text offset = some c ↔ rest.head? = some c := by
  have hany (c? : Option Char) : c? = some c ↔ c?.any (· == c) = true := by
    simp [Option.any_eq_true]
  have hbytewise : IsBytewise (· == c) := isBytewise_of_ascii fun d hd => by
    rwa [beq_iff_eq.1 hd]
  rw [hany, hany, h.any_head? hbytewise]

/-- All bytes of characters of a class show the class. -/
theorem Ahead.any_byte? (h : Ahead text offset (piece ++ rest)) (bytewise : IsBytewise p)
    (inside : ∀ c ∈ piece, p c = true) {k : Nat} (hk : k < String.utf8Len piece) :
    (byte? text (offset + k)).any p = true := by
  have hlength : k < (piece.flatMap String.utf8EncodeChar).length := by rwa [length_encoded]
  obtain ⟨c, hc, hb⟩ := List.mem_flatMap.1 (List.getElem_mem hlength)
  rw [h.byte?_add k, List.flatMap_append, List.getElem?_append_left hlength,
    List.getElem?_eq_getElem hlength, Option.map_some, Option.any_some, bytewise c _ hb]
  exact inside c hc

/-! ## Passing bytes -/

/-- The first offset from `offset` on at which no byte of the class `p` stands. -/
def passWhile (text : String) (p : Char → Bool) (offset : Nat) : Nat :=
  if h : (byte? text offset).any p = true then passWhile text p (offset + 1) else offset
termination_by text.utf8ByteSize - offset
decreasing_by
  obtain ⟨c, hc, -⟩ := (Option.any_eq_true p _).1 h
  have := lt_of_byte? hc
  omega

theorem le_passWhile (text : String) (p : Char → Bool) (offset : Nat) :
    offset ≤ passWhile text p offset := by
  fun_induction passWhile text p offset with
  | case1 offset h ih => omega
  | case2 => exact Nat.le_refl _

theorem lt_passWhile (h : (byte? text offset).any p = true) :
    offset < passWhile text p offset := by
  rw [passWhile, dif_pos h]
  exact le_passWhile text p (offset + 1)

theorem passWhile_add {n : Nat} (inside : ∀ k < n, (byte? text (offset + k)).any p = true) :
    passWhile text p offset = passWhile text p (offset + n) := by
  induction n with
  | zero => rfl
  | succ n ih =>
    rw [ih fun k hk => inside k (Nat.lt_succ_of_lt hk), passWhile, dif_pos (inside n n.lt_succ_self)]
    rfl

/-- From a boundary, the bytes of a class are passed with the characters of the class. -/
theorem Ahead.passWhile_eq (h : Ahead text offset rest) (bytewise : IsBytewise p) :
    passWhile text p offset = offset + String.utf8Len (rest.takeWhile p) := by
  have hsplit : Ahead text offset (rest.takeWhile p ++ rest.dropWhile p) := by
    rwa [List.takeWhile_append_dropWhile]
  -- The byte behind the characters of the class is the first one of a character outside it.
  have hstop : ¬(byte? text (offset + String.utf8Len (rest.takeWhile p))).any p = true := by
    rw [hsplit.append.any_head? bytewise]
    have hnot := List.head?_dropWhile_not p rest
    cases hhead : (rest.dropWhile p).head? with
    | none => exact Bool.false_ne_true
    | some c =>
      rw [hhead] at hnot
      exact Bool.eq_false_iff.1 hnot
  rw [passWhile_add fun k hk => hsplit.any_byte? bytewise
      (fun c hc => List.all_eq_true.1 List.all_takeWhile c hc) hk, passWhile, dif_neg hstop]

theorem Ahead.passWhile (h : Ahead text offset rest) (bytewise : IsBytewise p) :
    Ahead text (Text.passWhile text p offset) (rest.dropWhile p) := by
  rw [h.passWhile_eq bytewise]
  refine Ahead.append ?_
  rwa [List.takeWhile_append_dropWhile]

/-! ## Searching backwards -/

/-- The last offset up to `offset` at which no character is divided. -/
def lastBoundary (text : String) : Nat → Nat
  | 0 => 0
  | offset + 1 =>
    if String.Pos.Raw.isValid text ⟨offset + 1⟩ then offset + 1 else lastBoundary text offset

/-- The offset behind the last line feed before `offset`. -/
def lineStart (text : String) : Nat → Nat
  | 0 => 0
  | offset + 1 =>
    if byte? text offset = some '\n' then offset + 1 else lineStart text offset

theorem Ahead.lastBoundary_eq (h : Ahead text offset rest) : lastBoundary text offset = offset := by
  cases offset with
  | zero => rfl
  | succ offset =>
    have hvalid : String.Pos.Raw.isValid text ⟨offset + 1⟩ = true :=
      String.Pos.Raw.isValid_eq_true_iff.2 h.mem_boundaries
    rw [lastBoundary, if_pos hvalid]

/-- No line begins inside a stretch without line feeds. -/
theorem lineStart_add {n : Nat} (absent : ∀ k < n, byte? text (offset + k) ≠ some '\n') :
    lineStart text (offset + n) = lineStart text offset := by
  induction n with
  | zero => rfl
  | succ n ih =>
    rw [← Nat.add_assoc, lineStart, if_neg (absent n n.lt_succ_self),
      ih fun k hk => absent k (Nat.lt_succ_of_lt hk)]

theorem Ahead.lineStart_newline (h : Ahead text offset ('\n' :: rest)) :
    lineStart text (offset + 1) = offset + 1 := by
  rw [lineStart, if_pos ((h.byte?_eq_some_iff (by decide)).2 rfl)]

theorem isBytewise_ne_newline : IsBytewise (· != '\n') := by
  refine isBytewise_of_alike fun c hc => bne_iff_ne.2 ?_
  rintro rfl
  exact absurd hc (by decide)

/-- Before the last line of a text stands a line feed or nothing. -/
theorem exists_append_lastLine (before : List Char) :
    ∃ earlier, before = earlier ++ Position.lastLine before ∧
      (earlier = [] ∨ ∃ lines, earlier = lines ++ ['\n']) := by
  obtain ⟨lines, -, -, -, hbefore⟩ := Position.exists_lines before []
  refine ⟨_, hbefore, ?_⟩
  rcases List.eq_nil_or_concat lines with rfl | ⟨lines, last, rfl⟩
  · exact .inl rfl
  · refine .inr ⟨lines.flatMap (· ++ ['\n']) ++ last, ?_⟩
    rw [List.concat_eq_append, List.flatMap_append, List.flatMap_singleton, List.append_assoc]

/-- What stands before an offset in its line begins where the line begins. -/
theorem ahead_lineStart {before : List Char} (htext : text.toList = before ++ rest) :
    Ahead text (lineStart text (String.utf8Len before)) (Position.lastLine before ++ rest) := by
  obtain ⟨earlier, hbefore, hearlier⟩ := exists_append_lastLine before
  -- A line feed is a byte of no other character, so none is met on the way back through the line.
  have hline : Ahead text (String.utf8Len earlier) (Position.lastLine before ++ rest) :=
    ⟨earlier, by rw [htext, ← List.append_assoc, ← hbefore], rfl⟩
  have hlast : ∀ c ∈ Position.lastLine before, (c != '\n') = true := fun c hc =>
    List.all_eq_true.1 List.all_takeWhile c (List.mem_reverse.1 hc)
  have habsent : ∀ k < String.utf8Len (Position.lastLine before),
      byte? text (String.utf8Len earlier + k) ≠ some '\n' := by
    intro k hk hbyte
    have hany := hline.any_byte? isBytewise_ne_newline hlast hk
    rw [hbyte] at hany
    cases hany
  have hstart : lineStart text (String.utf8Len before) = lineStart text (String.utf8Len earlier) := by
    conv_lhs => rw [hbefore, String.utf8Len_append]
    exact lineStart_add habsent
  rw [hstart]
  rcases hearlier with rfl | ⟨lines, rfl⟩
  · exact hline
  · have hfeed : Ahead text (String.utf8Len lines) ('\n' :: (Position.lastLine before ++ rest)) :=
      ⟨lines, by rw [htext, ← List.singleton_append, ← List.append_assoc, ← List.append_assoc, ← hbefore],
        rfl⟩
    have hlength : String.utf8Len (lines ++ ['\n']) = String.utf8Len lines + 1 :=
      String.utf8Len_append lines ['\n']
    rw [hlength] at hline ⊢
    rwa [hfeed.lineStart_newline]

/-! ## Cutting out -/

/-- A stretch of a text, by the offsets of its ends. -/
structure Cut where
  start : Nat
  stop : Nat
  deriving DecidableEq, Repr

/-- A stretch lies in a text, and neither of its ends divides a character. -/
structure Cut.Fits (text : String) (cut : Cut) : Prop where
  ordered : cut.start ≤ cut.stop
  within : cut.stop ≤ text.utf8ByteSize
  start_boundary : cut.start ∈ Position.boundaries text
  stop_boundary : cut.stop ∈ Position.boundaries text

/-- The text of a stretch, if it is one of the text. -/
def cut? (text : String) (cut : Cut) : Option String :=
  if h : cut.start ≤ cut.stop ∧ String.Pos.Raw.IsValid text ⟨cut.start⟩ ∧
      String.Pos.Raw.IsValid text ⟨cut.stop⟩ then
    some (@String.extract text ⟨⟨cut.start⟩, h.2.1⟩ ⟨⟨cut.stop⟩, h.2.2⟩)
  else
    none

theorem Ahead.fits (h : Ahead text offset (piece ++ rest)) :
    Cut.Fits text ⟨offset, offset + String.utf8Len piece⟩ where
  ordered := Nat.le_add_right _ _
  within := by
    have := h.append.add_utf8Len
    simp only
    omega
  start_boundary := h.mem_boundaries
  stop_boundary := h.append.mem_boundaries

/-- Between two boundaries whole characters are cut out. -/
theorem Ahead.cut?_eq (h : Ahead text offset (piece ++ rest)) :
    cut? text ⟨offset, offset + String.utf8Len piece⟩ = some (String.ofList piece) := by
  rw [cut?, dif_pos ⟨h.fits.ordered, h.fits.start_boundary, h.fits.stop_boundary⟩]
  refine congrArg some (String.toByteArray_inj.1 ?_)
  rw [String.toByteArray_extract, String.toByteArray_ofList]
  obtain ⟨before, htext, rfl⟩ := h
  have hsize (s : List Char) : String.utf8Len s = s.utf8Encode.size := by
    rw [List.utf8Encode, List.size_toByteArray, length_encoded]
  have hbytes : text.toByteArray = before.utf8Encode ++ (piece.utf8Encode ++ rest.utf8Encode) := by
    rw [toByteArray_eq, htext, List.utf8Encode_append, List.utf8Encode_append]
  calc text.toByteArray.extract (String.utf8Len before) (String.utf8Len before + String.utf8Len piece)
      = (piece.utf8Encode ++ rest.utf8Encode).extract 0 (String.utf8Len piece) := by
        rw [hbytes, hsize before]
        exact @ByteArray.extract_append_size_add _ _ 0 _
    _ = piece.utf8Encode := ByteArray.extract_append_eq_left (hsize piece)

/-- The letter with the accent has two bytes. -/
example : cut? "né" ⟨1, 3⟩ = some "é" ∧ cut? "né" ⟨1, 2⟩ = none := by decide +kernel

end Offsets

end EpisodeCut.Text
