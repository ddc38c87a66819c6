import EpisodeCut.Json.Reader

/-!
# Numbers in JSON text

A number is read in two steps. Its digits are collected first (`readLiteral`), which is all that
happens to a number whose value does not matter. Then as many of them as fit into 64 binary digits
make the number (`Literal.number?`), which is exact if none is left over and nothing moves the point.
-/

set_option autoImplicit false

namespace EpisodeCut.Json

open Text

/-! ## Digits -/

/-- The bytes of ASCII digits. -/
def isDigit (b : UInt8) : Bool :=
  (Char.ofUInt8 b).isDigit

/-- The number that a digit denotes. -/
def digitValue (b : UInt8) : Nat :=
  b.toNat - 0x30

/-- The parts of a number. -/
structure Literal where
  /-- The digits before the point. -/
  whole : Bytes
  /-- The digits behind the point. -/
  fraction : Bytes
  /-- Whether the power of ten is negative, and its digits. -/
  power : Option (Bool × Bytes)
  deriving DecidableEq, Repr

/-- Read digits, of which there has to be one. The fault at the end of the text is `atEnd`. -/
def readDigits (atEnd : Fault) (s : Bytes) : Except Refusal (Bytes × Bytes) :=
  if s.head?.any isDigit then .ok (s.takeWhile isDigit, s.dropWhile isDigit)
  else .error ⟨if s.isEmpty then atEnd else .malformedNumber, s.drop 1⟩

/-- Read the digits before the point. A zero in front stands alone. -/
def readWhole (atEnd : Fault) (s : Bytes) : Except Refusal (Bytes × Bytes) :=
  if head? s = some '0' then
    if (s.drop 1).head?.any isDigit then .error ⟨.malformedNumber, s.drop 2⟩
    else .ok (s.take 1, s.drop 1)
  else readDigits atEnd s

/-- Read a point and the digits behind it, which may be missing together. -/
def readFraction (atEnd : Fault) (s : Bytes) : Except Refusal (Bytes × Bytes) :=
  if head? s = some '.' then readDigits atEnd (s.drop 1) else .ok ([], s)

/-- Read a power of ten, which may be missing. -/
def readPower (atEnd : Fault) (s : Bytes) : Except Refusal (Option (Bool × Bytes) × Bytes) :=
  if head? s = some 'e' ∨ head? s = some 'E' then
    let sign := head? (s.drop 1)
    let s := if sign = some '+' ∨ sign = some '-' then s.drop 2 else s.drop 1
    (readDigits atEnd s).map fun (digits, s) => (some (sign = some '-', digits), s)
  else .ok (none, s)

/-- Read a number behind its sign. -/
def readLiteral (atEnd : Fault) (s : Bytes) : Except Refusal (Literal × Bytes) := do
  let (whole, s) ← readWhole atEnd s
  let (fraction, s) ← readFraction atEnd s
  let (power, s) ← readPower atEnd s
  .ok (⟨whole, fraction, power⟩, s)

theorem readDigits_within (atEnd : Fault) (s : Bytes) : Within s (readDigits atEnd s) :=
  Within.ite (Within.ok _ (List.dropWhile_suffix _)) (Within.error _ _)

theorem readWhole_within (atEnd : Fault) (s : Bytes) : Within s (readWhole atEnd s) :=
  Within.ite (Within.ite (Within.error _ _) (Within.ok _ (List.drop_suffix 1 s)))
    (readDigits_within atEnd s)

theorem readFraction_within (atEnd : Fault) (s : Bytes) : Within s (readFraction atEnd s) :=
  Within.ite ((readDigits_within atEnd _).trans (List.drop_suffix 1 s))
    (Within.ok _ (List.suffix_refl s))

theorem readPower_within (atEnd : Fault) (s : Bytes) : Within s (readPower atEnd s) := by
  unfold readPower
  split
  · refine Within.map (readDigits_within atEnd _) ?_ fun _ => rfl
    split <;> exact List.drop_suffix _ s
  · exact Within.ok _ (List.suffix_refl s)

theorem readLiteral_within (atEnd : Fault) (s : Bytes) : Within s (readLiteral atEnd s) :=
  (readWhole_within atEnd s).bind fun _ s => (readFraction_within atEnd s).bind fun _ s =>
    (readPower_within atEnd s).bind fun _ s => Within.ok _ (List.suffix_refl s)

theorem length_lt_of_readDigits {atEnd : Fault} {s : Bytes} {found : Bytes × Bytes}
    (h : readDigits atEnd s = .ok found) : found.2.length < s.length := by
  unfold readDigits at h
  split at h
  · next hdigit =>
    cases h
    cases s with
    | nil => cases hdigit
    | cons b s =>
      have hdrop : (s.dropWhile isDigit).length ≤ s.length := (List.dropWhile_suffix _).length_le
      simp only [List.dropWhile_cons, show isDigit b = true from hdigit, if_true,
        List.length_cons]
      omega
  · cases h

theorem length_lt_of_readWhole {atEnd : Fault} {s : Bytes} {found : Bytes × Bytes}
    (h : readWhole atEnd s = .ok found) : found.2.length < s.length := by
  unfold readWhole at h
  split at h
  · next hzero =>
    split at h
    · cases h
    · cases h
      cases s with
      | nil => cases hzero
      | cons b s => simp
  · exact length_lt_of_readDigits h

theorem length_lt_of_readLiteral {atEnd : Fault} {s : Bytes} {found : Literal × Bytes}
    (h : readLiteral atEnd s = .ok found) : found.2.length < s.length := by
  cases hwhole : readWhole atEnd s with
  | error refusal =>
    simp only [readLiteral, hwhole, bind, Except.bind] at h
    cases h
  | ok whole =>
    have hrest : Within whole.2 (readLiteral atEnd s) := by
      simp only [readLiteral, hwhole]
      exact (readFraction_within atEnd _).bind fun _ s => (readPower_within atEnd s).bind fun _ s =>
        Within.ok _ (List.suffix_refl s)
    have := (hrest found h).length_le
    have := length_lt_of_readWhole hwhole
    omega

/-! ## Values -/

/-- Read on from `n` as long as the number has at most 64 binary digits: the number, and the digits
left. -/
def takeFitting (n : Nat) : Bytes → Nat × Bytes
  | [] => (n, [])
  | b :: rest =>
    if 10 * n + digitValue b < UInt64.size then takeFitting (10 * n + digitValue b) rest
    else (n, b :: rest)

/-- The digits after the one with which the number has more than 31 binary digits, if one does. -/
def afterOverflow? (n : Nat) : Bytes → Option Bytes
  | [] => none
  | b :: rest =>
    if Nat.pow 2 31 ≤ 10 * n + digitValue b then some rest
    else afterOverflow? (10 * n + digitValue b) rest

namespace Literal

/-- The digits of the number as far as they fit, and the power of ten that belongs to them. -/
def significand (literal : Literal) : Nat × Int :=
  let (n, left) := takeFitting 0 literal.whole
  let (n, unread) := takeFitting n literal.fraction
  (n, left.length - (literal.fraction.length - unread.length : Nat))

/-- The power of ten that is written. -/
def powerValue (literal : Literal) : Int :=
  match literal.power with
  | none => 0
  | some (isNegative, digits) =>
    let n : Nat := Numeral.value (digits.map Char.ofUInt8)
    if isNegative then -n else n

/-- The digits behind the point at which the power of ten is known to be too large. -/
def afterExcess? (literal : Literal) : Option Bytes :=
  match literal.power with
  | some (false, digits) => if literal.significand.1 = 0 then none else afterOverflow? 0 digits
  | _ => none

/-- The number, or `none` if it is too large. -/
def number? (literal : Literal) (isNegative : Bool) : Option Number :=
  let (n, scale) := literal.significand
  if literal.fraction.isEmpty ∧ literal.power = none ∧ scale = 0 then
    if isNegative = false then some (.natural n)
    else if 0 < n ∧ n ≤ Nat.pow 2 63 then some (.negative n)
    else some (.fraction true (.ofNat n))
  else
    ((Binary.ofNat n).scale? (scale + literal.powerValue)).map (.fraction isNegative)

end Literal

/-- Read a number behind its sign. -/
def readNumber (isNegative : Bool) (s : Bytes) : Except Refusal (Number × Bytes) := do
  let (literal, rest) ← readLiteral (.ended .value) s
  match literal.afterExcess? with
  | some unread => .error ⟨.numberTooLarge, unread ++ rest⟩
  | none =>
    match literal.number? isNegative with
    | some n => .ok (n, rest)
    | none => .error ⟨.numberTooLarge, rest⟩

/-- Pass a number behind its sign. -/
def skipNumber (s : Bytes) : Except Refusal (Unit × Bytes) :=
  (readLiteral .malformedNumber s).map fun (_, s) => ((), s)

theorem readNumber_within (isNegative : Bool) (s : Bytes) :
    Within s (readNumber isNegative s) :=
  (readLiteral_within (.ended .value) s).bind fun literal rest => by
    dsimp only
    split
    · exact Within.error _ _
    · split
      · exact Within.ok _ (List.suffix_refl rest)
      · exact Within.error _ _

theorem length_lt_of_skipNumber {s : Bytes} {found : Unit × Bytes}
    (h : skipNumber s = .ok found) : found.2.length < s.length := by
  unfold skipNumber at h
  cases hliteral : readLiteral .malformedNumber s with
  | error refusal => rw [hliteral] at h; cases h
  | ok literal => rw [hliteral] at h; cases h; exact length_lt_of_readLiteral hliteral

theorem skipNumber_within (s : Bytes) : Within s (skipNumber s) :=
  Within.map (readLiteral_within .malformedNumber s) (List.suffix_refl s) fun _ => rfl

end EpisodeCut.Json
