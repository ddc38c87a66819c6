import EpisodeCut.Json.Number
import EpisodeCut.Json.Text

/-!
# Values in JSON text

The head of a value tells of which kind the value is (`readHead`). A value that does not matter is
passed as a whole (`skip`): arrays and objects that are still open wait on a stack, so there is no
limit on how deeply they are nested.
-/

set_option autoImplicit false

namespace EpisodeCut.Json

/-! ## Heads -/

/-- Read the head of a value. The bracket that opens an array or an object is not read. -/
def readHead (s : Bytes) : Except Refusal (Head × Bytes) :=
  match next? s with
  | none => .error ⟨.ended .value, []⟩
  | some 'n' => (spell "ull".toList (afterNext s)).map fun (_, s) => (.null, s)
  | some 't' => (spell "rue".toList (afterNext s)).map fun (_, s) => (.boolean true, s)
  | some 'f' => (spell "alse".toList (afterNext s)).map fun (_, s) => (.boolean false, s)
  | some '\x22' => (readText [] (afterNext s)).map fun (content, s) => (.text content, s)
  | some '[' => .ok (.array, skipSpace s)
  | some '\x7b' => .ok (.object, skipSpace s)
  | some '-' => (readNumber true (afterNext s)).map fun (n, s) => (.number n, s)
  | some c =>
    if c.isDigit then (readNumber false (skipSpace s)).map fun (n, s) => (.number n, s)
    else .error ⟨.expectedValue, afterNext s⟩

theorem readHead_within (s : Bytes) : Within s (readHead s) := by
  unfold readHead
  split
  · exact Within.error _ _
  · exact Within.map (spell_within _ _) (afterNext_suffix s) fun _ => rfl
  · exact Within.map (spell_within _ _) (afterNext_suffix s) fun _ => rfl
  · exact Within.map (spell_within _ _) (afterNext_suffix s) fun _ => rfl
  · exact Within.map (readText_within _ _) (afterNext_suffix s) fun _ => rfl
  · exact Within.ok _ (skipSpace_suffix s)
  · exact Within.ok _ (skipSpace_suffix s)
  · exact Within.map (readNumber_within _ _) (afterNext_suffix s) fun _ => rfl
  · exact Within.ite (Within.map (readNumber_within _ _) (skipSpace_suffix s) fun _ => rfl)
      (Within.error _ _)

/-! ## Colons -/

/-- Read the colon between a key and its value. -/
def readColon (s : Bytes) : Except Refusal (Unit × Bytes) :=
  match next? s with
  | none => .error ⟨.ended .object, []⟩
  | some c => if c = ':' then .ok ((), afterNext s) else .error ⟨.expectedColon, afterNext s⟩

theorem readColon_within (s : Bytes) : Within s (readColon s) := by
  unfold readColon
  split
  · exact Within.error _ _
  · exact Within.ite (Within.ok _ (afterNext_suffix s)) (Within.error _ _)

/-! ## Passing values -/

/-- What an array or object that is still open is. -/
inductive Bracket where
  | array
  | object
  deriving DecidableEq, Repr

/-- The character that closes it. -/
def Bracket.closing : Bracket → Char
  | .array => ']'
  | .object => '\x7d'

/-- The fault of a text that ends before it is closed. -/
def Bracket.endFault : Bracket → Fault
  | .array => .ended .array
  | .object => .ended .object

/-- The fault of a text in which a value inside is followed by neither a comma nor the end. -/
def Bracket.itemFault : Bracket → Fault
  | .array => .expectedArrayEnd
  | .object => .expectedObjectEnd

/-- What comes next while values are passed. -/
inductive Pending where
  | value
  /-- A key with its colon, and then its value. -/
  | member
  /-- What follows a value. -/
  | tail
  deriving DecidableEq, Repr

/-- What comes next inside an array or object. -/
def Bracket.pending : Bracket → Pending
  | .array => .value
  | .object => .member

/-- Pass a value that is neither an array nor an object. -/
def skipScalar (s : Bytes) : Except Refusal (Unit × Bytes) :=
  match next? s with
  | none => .error ⟨.ended .value, []⟩
  | some 'n' => spell "ull".toList (afterNext s)
  | some 't' => spell "rue".toList (afterNext s)
  | some 'f' => spell "alse".toList (afterNext s)
  | some '\x22' => skipText (afterNext s)
  | some '-' => skipNumber (afterNext s)
  | some c => if c.isDigit then skipNumber (skipSpace s) else .error ⟨.expectedValue, afterNext s⟩

/-- Pass a key with its colon. -/
def skipKey (s : Bytes) : Except Refusal (Unit × Bytes) :=
  match next? s with
  | none => .error ⟨.ended .object, []⟩
  | some c =>
    if c = '\x22' then do
      let (_, s) ← skipText (afterNext s)
      readColon s
    else .error ⟨.expectedKey, afterNext s⟩

/-- The bracket that a character opens. -/
def opening? (c : Char) : Option Bracket :=
  if c = '[' then some .array else if c = '\x7b' then some .object else none

theorem skipScalar_within (s : Bytes) : Within s (skipScalar s) := by
  unfold skipScalar
  split
  · exact Within.error _ _
  · exact (spell_within _ _).trans (afterNext_suffix s)
  · exact (spell_within _ _).trans (afterNext_suffix s)
  · exact (spell_within _ _).trans (afterNext_suffix s)
  · exact (skipText_within _).trans (afterNext_suffix s)
  · exact (skipNumber_within _).trans (afterNext_suffix s)
  · exact Within.ite ((skipNumber_within _).trans (skipSpace_suffix s)) (Within.error _ _)

theorem length_lt_of_skipScalar {s : Bytes} {found : Unit × Bytes}
    (h : skipScalar s = .ok found) : found.2.length < s.length := by
  unfold skipScalar at h
  have hspace := (skipSpace_suffix s).length_le
  split at h
  · cases h
  · next hn =>
    exact Nat.lt_of_le_of_lt (spell_within _ _ _ h).length_le (length_afterNext_lt hn)
  · next ht =>
    exact Nat.lt_of_le_of_lt (spell_within _ _ _ h).length_le (length_afterNext_lt ht)
  · next hf =>
    exact Nat.lt_of_le_of_lt (spell_within _ _ _ h).length_le (length_afterNext_lt hf)
  · next hquote =>
    exact Nat.lt_of_le_of_lt (skipText_within _ _ h).length_le (length_afterNext_lt hquote)
  · next hminus =>
    exact Nat.lt_of_le_of_lt (skipNumber_within _ _ h).length_le (length_afterNext_lt hminus)
  · split at h
    · exact Nat.lt_of_lt_of_le (length_lt_of_skipNumber h) hspace
    · cases h

theorem skipKey_within (s : Bytes) : Within s (skipKey s) := by
  unfold skipKey
  split
  · exact Within.error _ _
  · exact Within.ite
      (((skipText_within _).trans (afterNext_suffix s)).bind fun _ => readColon_within)
      (Within.error _ _)

theorem length_lt_of_skipKey {s : Bytes} {found : Unit × Bytes} (h : skipKey s = .ok found) :
    found.2.length < s.length := by
  unfold skipKey at h
  split at h
  · cases h
  · next hnext =>
    split at h
    · have hrest := (skipText_within (afterNext s)).bind (fun _ => readColon_within) found h
      exact Nat.lt_of_le_of_lt hrest.length_le (length_afterNext_lt hnext)
    · cases h

theorem length_afterNext_lt_of_bind {s : Bytes} {bracket : Bracket}
    (h : (next? s).bind opening? = some bracket) : (afterNext s).length < s.length := by
  obtain ⟨c, hc, -⟩ := Option.bind_eq_some_iff.1 h
  exact length_afterNext_lt hc

/-- Pass what comes next, and then all that is still open. -/
def skip (pending : Pending) (stack : List Bracket) (s : Bytes) :
    Except Refusal (Unit × Bytes) :=
  match pending with
  | .value =>
    match hc : (next? s).bind opening? with
    | some bracket =>
      have : (afterNext s).length < s.length := length_afterNext_lt_of_bind hc
      match hd : next? (afterNext s) with
      | none => .error ⟨bracket.endFault, []⟩
      | some d =>
        have := length_afterNext_lt hd
        if d = bracket.closing then skip .tail stack (afterNext (afterNext s))
        else skip bracket.pending (bracket :: stack) (afterNext s)
    | none =>
      match hs : skipScalar s with
      | .error refusal => .error refusal
      | .ok (_, rest) =>
        have := length_lt_of_skipScalar hs
        skip .tail stack rest
  | .member =>
    match hk : skipKey s with
    | .error refusal => .error refusal
    | .ok (_, rest) =>
      have := length_lt_of_skipKey hk
      skip .value stack rest
  | .tail =>
    match stack with
    | [] => .ok ((), s)
    | bracket :: stack =>
      match hc : next? s with
      | none => .error ⟨bracket.endFault, []⟩
      | some c =>
        have := length_afterNext_lt hc
        if c = ',' then skip bracket.pending (bracket :: stack) (afterNext s)
        else if c = bracket.closing then skip .tail stack (afterNext s)
        else .error ⟨bracket.itemFault, afterNext s⟩
termination_by s.length

theorem skip_within (pending : Pending) (stack : List Bracket) (s : Bytes) :
    Within s (skip pending stack s) := by
  fun_induction skip pending stack s with
  | case1 => exact Within.error _ _
  | case2 _ s _ _ _ _ _ ih =>
    exact ih.trans ((afterNext_suffix _).trans (afterNext_suffix s))
  | case3 _ s _ _ _ _ _ _ _ ih => exact ih.trans (afterNext_suffix s)
  | case4 => exact Within.error _ _
  | case5 _ s _ _ _ hs _ ih => exact ih.trans (skipScalar_within s _ hs)
  | case6 => exact Within.error _ _
  | case7 _ s _ _ hk _ ih => exact ih.trans (skipKey_within s _ hk)
  | case8 s => exact Within.ok _ (List.suffix_refl s)
  | case9 => exact Within.error _ _
  | case10 s _ _ _ _ ih => exact ih.trans (afterNext_suffix s)
  | case11 s _ _ _ _ _ ih => exact ih.trans (afterNext_suffix s)
  | case12 => exact Within.error _ _

/-- Pass a value. -/
def skipValue (s : Bytes) : Except Refusal (Unit × Bytes) :=
  skip .value [] s

end EpisodeCut.Json
