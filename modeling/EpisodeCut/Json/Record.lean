import EpisodeCut.Json.Value

/-!
# Typed readers of JSON text

Strings, small numbers, lists and records are read straight from the text (`Reader.text`,
`Reader.word`, `Reader.list`, `Schema.reader`), and each may give way to null (`Reader.optional`). A
record is written as an object with its fields among the members, or as the array of all its fields.
In an object a field may be absent but not occur twice, and other members are passed.
-/

set_option autoImplicit false

namespace EpisodeCut.Json

/-! ## Simple values -/

/-- Read a string. -/
def readString (s : Bytes) : Except Refusal (String × Bytes) :=
  match readHead s with
  | .error refusal => .error refusal
  | .ok (.text content, rest) => .ok (content, rest)
  | .ok (head, rest) => .error ⟨.wrongKind head .text, rest⟩

/-- Read a natural number of at most 32 binary digits. -/
def readWord (s : Bytes) : Except Refusal (UInt32 × Bytes) :=
  match readHead s with
  | .error refusal => .error refusal
  | .ok (.number (.natural n), rest) =>
    if n < UInt32.size then .ok (UInt32.ofNat n, rest)
    else .error ⟨.outOfRange (.natural n) .word, rest⟩
  | .ok (.number (.negative n), rest) => .error ⟨.outOfRange (.negative n) .word, rest⟩
  | .ok (head, rest) => .error ⟨.wrongKind head .word, rest⟩

theorem readString_within (s : Bytes) : Within s (readString s) := by
  unfold readString
  split
  · exact Within.error _ _
  · next hhead => exact Within.ok _ (readHead_within s _ hhead)
  · exact Within.error _ _

theorem readWord_within (s : Bytes) : Within s (readWord s) := by
  unfold readWord
  split
  · exact Within.error _ _
  · next hhead => exact Within.ite (Within.ok _ (readHead_within s _ hhead)) (Within.error _ _)
  · exact Within.error _ _
  · exact Within.error _ _

namespace Reader

variable {α β : Type}

/-- The reader of strings. -/
def text : Reader String := ⟨readString, readString_within⟩

/-- The reader of natural numbers of at most 32 binary digits. -/
def word : Reader UInt32 := ⟨readWord, readWord_within⟩

/-- Read a value and apply `f` to it. -/
def map (f : α → β) (reader : Reader α) : Reader β where
  read s := (reader.read s).map fun (value, rest) => (f value, rest)
  suffix s := Within.map (reader.suffix s) (List.suffix_refl s) fun _ => rfl

/-- Read a value or null. -/
def optional (reader : Reader α) : Reader (Option α) where
  read s :=
    if next? s = some 'n' then
      (spell "ull".toList (afterNext s)).map fun (_, rest) => (none, rest)
    else
      (reader.read s).map fun (value, rest) => (some value, rest)
  suffix s :=
    Within.ite (Within.map (spell_within _ _) (afterNext_suffix s) fun _ => rfl)
      (Within.map (reader.suffix s) (List.suffix_refl s) fun _ => rfl)

end Reader

/-! ## Lists -/

/-- Go on to the next item of an array, which is the first one if `first`: the answer tells whether
there is one. The bracket that closes the array is not read. -/
def nextItem (first : Bool) (s : Bytes) : Except Refusal (Bool × Bytes) :=
  match next? s with
  | none => .error ⟨.ended .array, []⟩
  | some c =>
    if c = ']' then .ok (false, s)
    else if first then .ok (true, s)
    else if c = ',' then
      match next? (afterNext s) with
      | none => .error ⟨.ended .value, []⟩
      | some d =>
        if d = ']' then .error ⟨.trailingComma, afterNext (afterNext s)⟩
        else .ok (true, afterNext s)
    else .error ⟨.expectedArrayEnd, afterNext s⟩

theorem nextItem_within (first : Bool) (s : Bytes) : Within s (nextItem first s) := by
  unfold nextItem
  split
  · exact Within.error _ _
  · refine Within.ite (Within.ok _ (List.suffix_refl s))
      (Within.ite (Within.ok _ (List.suffix_refl s)) (Within.ite ?_ (Within.error _ _)))
    split
    · exact Within.error _ _
    · exact Within.ite (Within.error _ _) (Within.ok _ (afterNext_suffix s))

theorem length_lt_of_nextItem {s rest : Bytes} (h : nextItem false s = .ok (true, rest)) :
    rest.length < s.length := by
  unfold nextItem at h
  split at h
  · cases h
  · next hnext =>
    have hlt := length_afterNext_lt hnext
    split at h
    · cases h
    · simp only [Bool.false_eq_true, if_false] at h
      split at h
      · split at h
        · cases h
        · split at h
          · cases h
          · cases h; exact hlt
      · cases h

theorem measure_lt_of_nextItem {first : Bool} {s rest next : Bytes}
    (h : nextItem first s = .ok (true, rest)) (hnext : next <:+ rest) :
    2 * next.length < 2 * s.length + first.toNat := by
  have hlength := hnext.length_le
  cases first with
  | false =>
    have := length_lt_of_nextItem h
    omega
  | true =>
    have : rest.length ≤ s.length := (nextItem_within true s _ h).length_le
    simp only [Bool.toNat_true]
    omega

/-- Read the items of an array behind its opening bracket, after the items `taken` with the last one
in front. -/
def readItems {α : Type} (reader : Reader α) (taken : List α) (first : Bool) (s : Bytes) :
    Except Refusal (List α × Bytes) :=
  match hn : nextItem first s with
  | .error refusal => .error refusal
  | .ok (false, rest) => .ok (taken.reverse, afterNext rest)
  | .ok (true, rest) =>
    match hr : reader.read rest with
    | .error refusal => .error refusal
    | .ok (value, next) =>
      have := measure_lt_of_nextItem hn (reader.suffix rest _ hr)
      readItems reader (value :: taken) false next
termination_by 2 * s.length + first.toNat
decreasing_by exact this

/-- Read a list. -/
def readList {α : Type} (reader : Reader α) (s : Bytes) : Except Refusal (List α × Bytes) :=
  match readHead s with
  | .error refusal => .error refusal
  | .ok (.array, rest) => readItems reader [] true (afterNext rest)
  | .ok (head, rest) => .error ⟨.wrongKind head .list, rest⟩

theorem readItems_within {α : Type} (reader : Reader α) (taken : List α) (first : Bool)
    (s : Bytes) : Within s (readItems reader taken first s) := by
  fun_induction readItems reader taken first s with
  | case1 => exact Within.error _ _
  | case2 taken first s rest hn =>
    exact Within.ok _ ((afterNext_suffix rest).trans (nextItem_within first s _ hn))
  | case3 => exact Within.error _ _
  | case4 taken first s rest hn value next hr _ ih =>
    exact ih.trans ((reader.suffix rest _ hr).trans (nextItem_within first s _ hn))

theorem readList_within {α : Type} (reader : Reader α) (s : Bytes) :
    Within s (readList reader s) := by
  unfold readList
  split
  · exact Within.error _ _
  · next hhead =>
    exact (readItems_within reader _ _ _).trans
      ((afterNext_suffix _).trans (readHead_within s _ hhead))
  · exact Within.error _ _

/-- The reader of lists. -/
def Reader.list {α : Type} (reader : Reader α) : Reader (List α) :=
  ⟨readList reader, readList_within reader⟩

/-! ## Records -/

/-- A field of a record `σ`. -/
structure Field (σ : Type) where
  name : String
  /-- Reads the value and puts it into the record. -/
  reader : Reader (σ → σ)
  /-- Whether an array of the fields may end before this one. -/
  mayEnd : Bool

/-- The form of a record `σ`. -/
structure Schema (σ : Type) where
  name : String
  /-- The record none of whose fields is present. -/
  absent : σ
  fields : List (Field σ)

/-- Read a key. -/
def readKey (s : Bytes) : Except Refusal (String × Bytes) :=
  match next? s with
  | none => .error ⟨.ended .value, []⟩
  | some c =>
    if c = '\x22' then readText [] (afterNext s)
    else .error ⟨if c = '\x7d' then .trailingComma else .expectedKey, afterNext s⟩

/-- Go on to the next member of an object, which is the first one if `first`, and read its key. The
brace that closes the object is read. -/
def nextKey (first : Bool) (s : Bytes) : Except Refusal (Option String × Bytes) :=
  match next? s with
  | none => .error ⟨.ended .object, []⟩
  | some c =>
    if c = '\x7d' then .ok (none, afterNext s)
    else if first then (readKey s).map fun (key, rest) => (some key, rest)
    else if c = ',' then (readKey (afterNext s)).map fun (key, rest) => (some key, rest)
    else .error ⟨.expectedObjectEnd, afterNext s⟩

/-- Go on to the end of an array, which has to come next. -/
def closeArray (s : Bytes) : Except Refusal (Unit × Bytes) :=
  match next? s with
  | none => .error ⟨.ended .array, []⟩
  | some c =>
    if c = ']' then .ok ((), afterNext s)
    else if c = ',' then
      .error ⟨if next? (afterNext s) = some ']' then .trailingComma else .trailingText,
        afterNext (afterNext s)⟩
    else .error ⟨.trailingText, afterNext s⟩

theorem readKey_within (s : Bytes) : Within s (readKey s) := by
  unfold readKey
  split
  · exact Within.error _ _
  · exact Within.ite ((readText_within _ _).trans (afterNext_suffix s)) (Within.error _ _)

theorem length_lt_of_readKey {s : Bytes} {found : String × Bytes} (h : readKey s = .ok found) :
    found.2.length < s.length := by
  unfold readKey at h
  split at h
  · cases h
  · next hnext =>
    split at h
    · exact Nat.lt_of_le_of_lt (readText_within _ _ _ h).length_le (length_afterNext_lt hnext)
    · cases h

theorem nextKey_within (first : Bool) (s : Bytes) : Within s (nextKey first s) := by
  unfold nextKey
  split
  · exact Within.error _ _
  · exact Within.ite (Within.ok _ (afterNext_suffix s))
      (Within.ite (Within.map (readKey_within s) (List.suffix_refl s) fun _ => rfl)
        (Within.ite (Within.map (readKey_within _) (afterNext_suffix s) fun _ => rfl)
          (Within.error _ _)))

theorem length_lt_of_nextKey {first : Bool} {s rest : Bytes} {key : String}
    (h : nextKey first s = .ok (some key, rest)) : rest.length < s.length := by
  unfold nextKey at h
  split at h
  · cases h
  · split at h
    · cases h
    · split at h
      · cases hkey : readKey s with
        | error refusal => rw [hkey] at h; cases h
        | ok found => rw [hkey] at h; cases h; exact length_lt_of_readKey hkey
      · split at h
        · cases hkey : readKey (afterNext s) with
          | error refusal => rw [hkey] at h; cases h
          | ok found =>
            rw [hkey] at h
            cases h
            exact Nat.lt_of_lt_of_le (length_lt_of_readKey hkey) (afterNext_suffix s).length_le
        · cases h

theorem closeArray_within (s : Bytes) : Within s (closeArray s) := by
  unfold closeArray
  split
  · exact Within.error _ _
  · exact Within.ite (Within.ok _ (afterNext_suffix s))
      (Within.ite (Within.error _ _) (Within.error _ _))

namespace Schema

variable {σ : Type}

/-- The field of a name. -/
def field? (schema : Schema σ) (name : String) : Option (Field σ) :=
  schema.fields.find? (·.name == name)

/-- Read the member of an object behind its key: the change to the record. -/
def readMember (schema : Schema σ) (key : String) (s : Bytes) :
    Except Refusal ((σ → σ) × Bytes) := do
  let (_, s) ← readColon s
  match schema.field? key with
  | some field => field.reader.read s
  | none => (skipValue s).map fun (_, rest) => (id, rest)

theorem readMember_within (schema : Schema σ) (key : String) (s : Bytes) :
    Within s (schema.readMember key s) :=
  (readColon_within s).bind fun _ s => by
    dsimp only
    split
    · next field _ => exact field.reader.suffix s
    · exact Within.map (skip_within _ _ _) (List.suffix_refl s) fun _ => rfl

/-- Read the members of an object behind its opening brace, or behind a member. The keys read
before are `seen`. A field that occurs again is refused where its colon is expected. -/
def readMembers (schema : Schema σ) (seen : List String) (record : σ) (first : Bool) (s : Bytes) :
    Except Refusal (σ × Bytes) :=
  match hk : nextKey first s with
  | .error refusal => .error refusal
  | .ok (none, rest) => .ok (record, rest)
  | .ok (some key, rest) =>
    if (schema.field? key).isSome ∧ key ∈ seen then
      .error ⟨.repeatedField key,
        if next? rest = some '\x7d' then afterNext rest else skipSpace rest⟩
    else
      match hm : schema.readMember key rest with
      | .error refusal => .error refusal
      | .ok (change, next) =>
        have : rest.length < s.length := length_lt_of_nextKey hk
        have : next.length ≤ rest.length := (schema.readMember_within key rest _ hm).length_le
        readMembers schema (key :: seen) (change record) false next
termination_by s.length

/-- Read the items of an array behind its opening bracket as the fields from the place `index` on. -/
def readFields (schema : Schema σ) (index : Nat) (record : σ) (first : Bool) :
    List (Field σ) → Bytes → Except Refusal (σ × Bytes)
  | [], s => (closeArray s).map fun (_, rest) => (record, rest)
  | field :: fields, s =>
    match nextItem first s with
    | .error refusal => .error refusal
    | .ok (true, rest) =>
      match field.reader.read rest with
      | .error refusal => .error refusal
      | .ok (change, next) => readFields schema (index + 1) (change record) false fields next
    | .ok (false, rest) =>
      if field.mayEnd then readFields schema (index + 1) record first fields rest
      else
        .error ⟨.wrongLength index (.fields schema.name schema.fields.length), afterNext rest⟩

/-- Read a record. -/
def read (schema : Schema σ) (s : Bytes) : Except Refusal (σ × Bytes) :=
  match readHead s with
  | .error refusal => .error refusal
  | .ok (.array, rest) => schema.readFields 0 schema.absent true schema.fields (afterNext rest)
  | .ok (.object, rest) => schema.readMembers [] schema.absent true (afterNext rest)
  | .ok (head, rest) => .error ⟨.wrongKind head (.record schema.name), rest⟩

theorem readMembers_within (schema : Schema σ) (seen : List String) (record : σ) (first : Bool)
    (s : Bytes) : Within s (schema.readMembers seen record first s) := by
  fun_induction readMembers schema seen record first s with
  | case1 => exact Within.error _ _
  | case2 seen record first s rest hk => exact Within.ok _ (nextKey_within first s _ hk)
  | case3 => exact Within.error _ _
  | case4 => exact Within.error _ _
  | case5 seen record first s key rest hk _ change next hm _ _ ih =>
    exact ih.trans ((schema.readMember_within key rest _ hm).trans (nextKey_within first s _ hk))

theorem readFields_within (schema : Schema σ) (index : Nat) (record : σ) (first : Bool)
    (fields : List (Field σ)) (s : Bytes) :
    Within s (schema.readFields index record first fields s) := by
  induction fields generalizing index record first s with
  | nil => exact Within.map (closeArray_within s) (List.suffix_refl s) fun _ => rfl
  | cons field fields ih =>
    rw [readFields]
    split
    · exact Within.error _ _
    · next rest hn =>
      split
      · exact Within.error _ _
      · next change next hr =>
        exact (ih _ _ _ _).trans
          ((field.reader.suffix rest _ hr).trans (nextItem_within first s _ hn))
    · next rest hn =>
      exact Within.ite ((ih _ _ _ _).trans (nextItem_within first s _ hn)) (Within.error _ _)

theorem read_within (schema : Schema σ) (s : Bytes) : Within s (schema.read s) := by
  unfold read
  split
  · exact Within.error _ _
  · next hhead =>
    exact (schema.readFields_within _ _ _ _ _).trans
      ((afterNext_suffix _).trans (readHead_within s _ hhead))
  · next hhead =>
    exact (schema.readMembers_within _ _ _ _).trans
      ((afterNext_suffix _).trans (readHead_within s _ hhead))
  · exact Within.error _ _

/-- The reader of records. -/
def reader (schema : Schema σ) : Reader σ :=
  ⟨schema.read, schema.read_within⟩

end Schema

end EpisodeCut.Json
