import EpisodeCut.Json.Fault

/-!
# Readers of JSON text

A reader takes the bytes still to be read and gives a value with the bytes after it, which are a
suffix of those it was given (`Reader.suffix`); that bounds all recursion. A reader that refuses the
text stops at a suffix too (`Refusal`), from which `Json.read` computes the line and column of the
refusal. A refusal of a byte is reported behind that byte. White space may stand between any two
tokens.
-/

set_option autoImplicit false

namespace EpisodeCut.Json

/-- A JSON text, or what is left of it. -/
abbrev Bytes := List UInt8

/-- A refusal: the fault, and the text behind the point at which it is reported. -/
structure Refusal where
  fault : Fault
  rest : Bytes
  deriving DecidableEq, Repr

/-- If a value has been read, the text after it is a suffix of `s`. -/
def Within {α : Type} (s : Bytes) (outcome : Except Refusal (α × Bytes)) : Prop :=
  ∀ found, outcome = .ok found → found.2 <:+ s

/-- A reader of values: it gives a value with the text after it, or refuses the text. -/
structure Reader (α : Type) where
  read : Bytes → Except Refusal (α × Bytes)
  suffix : ∀ s, Within s (read s)

namespace Within

variable {α β : Type} {s t : Bytes}

theorem error (s : Bytes) (refusal : Refusal) :
    Within s (.error refusal : Except Refusal (α × Bytes)) := by
  intro found h
  cases h

theorem ok {rest : Bytes} (value : α) (h : rest <:+ s) :
    Within s (.ok (value, rest) : Except Refusal (α × Bytes)) := by
  intro found hfound
  cases hfound
  exact h

theorem trans {outcome : Except Refusal (α × Bytes)} (h : Within t outcome) (ht : t <:+ s) :
    Within s outcome :=
  fun found hfound => (h found hfound).trans ht

theorem ite {p : Prop} [Decidable p] {first second : Except Refusal (α × Bytes)}
    (hfirst : Within s first) (hsecond : Within s second) :
    Within s (if p then first else second) := by
  split
  · exact hfirst
  · exact hsecond

theorem bind {outcome : Except Refusal (α × Bytes)}
    {next : α × Bytes → Except Refusal (β × Bytes)} (h : Within s outcome)
    (hnext : ∀ value rest, Within rest (next (value, rest))) : Within s (outcome >>= next) := by
  cases outcome with
  | error refusal => exact error s refusal
  | ok found => exact (hnext found.1 found.2).trans (h found rfl)

theorem map {outcome : Except Refusal (α × Bytes)} {f : α × Bytes → β × Bytes}
    (h : Within t outcome) (ht : t <:+ s) (hf : ∀ found, (f found).2 = found.2) :
    Within s (outcome.map f) := by
  cases outcome with
  | error refusal => exact error s refusal
  | ok found => exact ok _ (hf found ▸ (h found rfl).trans ht)

end Within

/-! ## White space and words -/

/-- White space between tokens. -/
def isSpace (b : UInt8) : Bool :=
  b == 0x20 || b == 0x09 || b == 0x0A || b == 0x0D

/-- The text after the white space at its head. -/
def skipSpace (s : Bytes) : Bytes :=
  s.dropWhile isSpace

/-- The byte at the head of a text, as the ASCII character that it may be. -/
def head? (s : Bytes) : Option Char :=
  s.head?.map Char.ofUInt8

/-- The first character of the next token. -/
def next? (s : Bytes) : Option Char :=
  head? (skipSpace s)

/-- The text behind the first character of the next token. -/
def afterNext (s : Bytes) : Bytes :=
  (skipSpace s).drop 1

/-- Read the letters `word`. -/
def spell : List Char → Bytes → Except Refusal (Unit × Bytes)
  | [], s => .ok ((), s)
  | _ :: _, [] => .error ⟨.ended .value, []⟩
  | c :: word, b :: s =>
    if Char.ofUInt8 b = c then spell word s else .error ⟨.unknownWord, s⟩

theorem skipSpace_suffix (s : Bytes) : skipSpace s <:+ s :=
  List.dropWhile_suffix _

theorem afterNext_suffix (s : Bytes) : afterNext s <:+ s :=
  (List.drop_suffix 1 _).trans (skipSpace_suffix s)

theorem length_afterNext_lt {s : Bytes} {c : Char} (h : next? s = some c) :
    (afterNext s).length < s.length := by
  have hspace := (skipSpace_suffix s).length_le
  unfold next? head? at h
  unfold afterNext
  cases hs : skipSpace s with
  | nil => rw [hs] at h; cases h
  | cons b rest => rw [hs] at hspace; simp only [List.drop_succ_cons, List.drop_zero,
      List.length_cons] at hspace ⊢; omega

theorem spell_within (word : List Char) (s : Bytes) : Within s (spell word s) := by
  induction word generalizing s with
  | nil => exact Within.ok _ (List.suffix_refl s)
  | cons c word ih =>
    cases s with
    | nil => exact Within.error _ _
    | cons b s =>
      rw [spell]
      split
      · exact (ih s).trans (List.suffix_cons b s)
      · exact Within.error _ _

/-! ## Whole texts -/

/-- A refusal of `text` as it is reported. -/
def Refusal.complaint (refusal : Refusal) (text : Bytes) : Complaint where
  fault := refusal.fault
  line := (text.take (text.length - refusal.rest.length)).count 0x0A + 1
  column := ((text.take (text.length - refusal.rest.length)).reverse.takeWhile (· != 0x0A)).length

/-- Read a text that holds one value and nothing else. -/
def read {α : Type} (reader : Reader α) (text : Bytes) : Except Complaint α :=
  match reader.read text with
  | .error refusal => .error (refusal.complaint text)
  | .ok (value, rest) =>
    if (next? rest).isNone then .ok value
    else .error ((⟨.trailingText, afterNext rest⟩ : Refusal).complaint text)

end EpisodeCut.Json
