import EpisodeCut.Json.Record
import EpisodeCut.Proofs.Json.Passing
import Mathlib.Data.List.Pairwise
import Mathlib.Data.List.Perm.Basic

/-!
# Records and lists in JSON texts

A reader that reads the texts of a value wherever they stand (`Reader.Reads`) can be built up: for
values that may be null, for lists (`Reader.reads_list`) and for records. The members of a record
are changes to it, made one after another in the order of the text (`Schema.readMembers_items`).
Since the changes to different fields commute, the record does not depend on that order, and members
that are no fields leave it as it is (`Schema.reads_record`).
-/

set_option autoImplicit false

namespace EpisodeCut.Json

open Text

variable {α β σ : Type} {w s lead rest next : Bytes} {first : Bool}

/-- The texts of a value are read as the value wherever they stand. -/
structure Reader.Reads (reader : Reader α) (a : α) (s : Bytes) : Prop where
  begins : Begins s
  read {w rest : Bytes} (blank : IsBlank w) (ends : Ends rest) :
    reader.read (w ++ (s ++ rest)) = .ok (a, rest)

/-! ## Simple values -/

theorem readHead_string {content : String} (string : StringText content s) (blank : IsBlank w)
    (rest : Bytes) : readHead (w ++ (s ++ rest)) = .ok (.text content, rest) := by
  cases string with
  | @quoted inner chars =>
    simp only [List.cons_append, List.append_assoc, List.nil_append]
    have hnext : next? (w ++ 0x22 :: (inner ++ 0x22 :: rest)) = some '\x22' := next?_blank blank _
    have hafter : afterNext (w ++ 0x22 :: (inner ++ 0x22 :: rest)) = inner ++ 0x22 :: rest :=
      afterNext_blank blank _
    rw [readHead, hnext]
    simp only [hafter, readText_string chars]
    rfl

theorem readHead_write {n : Nat} (h : n < UInt64.size) (blank : IsBlank w) (ends : Ends rest) :
    readHead (w ++ ((Numeral.write n).map Char.toUInt8 ++ rest)) =
      .ok (.number (.natural n), rest) := by
  obtain ⟨hnonempty, hdigits⟩ := (wholeText_write n).toDigitsText
  obtain ⟨b, t, hs⟩ := List.exists_cons_of_ne_nil hnonempty
  have hdigit : isDigit b = true := hdigits b (hs ▸ List.mem_cons_self)
  have hread := readNumber_write h ends
  rw [hs] at hread ⊢
  have hsolid := isSpace_of_isDigit hdigit
  have hnext : next? (w ++ (b :: t ++ rest)) = some (Char.ofUInt8 b) :=
    next?_solid blank hsolid _
  have hskip : skipSpace (w ++ (b :: t ++ rest)) = b :: t ++ rest :=
    (skipSpace_blank blank _).trans (skipSpace_cons hsolid _)
  have hchar : (Char.ofUInt8 b).isDigit = true := hdigit
  unfold readHead
  rw [hnext, hskip]
  split
  case h_1 h => cases h
  case h_9 c _ _ _ _ _ _ _ h =>
    rw [← Option.some.inj h, if_pos hchar, hread]
    rfl
  all_goals
    next h =>
      -- No other kind of value begins with a digit.
      rw [Option.some.inj h] at hchar
      cases hchar

theorem readHead_array (blank : IsBlank w) (s : Bytes) :
    readHead (w ++ 0x5B :: s) = .ok (.array, 0x5B :: s) := by
  have hnext : next? (w ++ 0x5B :: s) = some '[' := next?_blank blank _
  have hskip : skipSpace (w ++ 0x5B :: s) = 0x5B :: s := skipSpace_blank blank _
  rw [readHead, hnext]
  simp only [hskip]

theorem readHead_object (blank : IsBlank w) (s : Bytes) :
    readHead (w ++ 0x7B :: s) = .ok (.object, 0x7B :: s) := by
  have hnext : next? (w ++ 0x7B :: s) = some '\x7b' := next?_blank blank _
  have hskip : skipSpace (w ++ 0x7B :: s) = 0x7B :: s := skipSpace_blank blank _
  rw [readHead, hnext]
  simp only [hskip]

namespace Reader

variable {reader : Reader α} {a : α}

theorem reads_text {content : String} (string : StringText content s) : text.Reads content s where
  begins := by
    cases string with
    | quoted chars => exact ⟨_, _, rfl, by decide⟩
  read blank _ := by
    change readString _ = _
    rw [readString, readHead_string string blank]

theorem reads_word {n : UInt32} (digits : WordText n s) : word.Reads n s where
  begins := by
    obtain ⟨hnonempty, hdigits⟩ := (wholeText_write n.toNat).toDigitsText
    rw [← digits] at hnonempty hdigits
    obtain ⟨b, t, rfl⟩ := List.exists_cons_of_ne_nil hnonempty
    exact begins_of_isDigit (hdigits b List.mem_cons_self) t
  read blank ends := by
    have hfits : n.toNat < UInt32.size := n.toNat_lt
    change readWord _ = _
    rw [digits, readWord, readHead_write (Nat.lt_trans hfits (by decide)) blank ends]
    simp only [if_pos hfits, UInt32.ofNat_toNat]

theorem reads_map (reads : reader.Reads a s) (f : α → β) : (reader.map f).Reads (f a) s where
  begins := reads.begins
  read blank ends := by
    change (reader.read _).map _ = _
    rw [reads.read blank ends]
    rfl

theorem reads_null (reader : Reader α) : reader.optional.Reads none (ascii "null") where
  begins := ⟨_, _, rfl, by decide⟩
  read {w rest} blank _ := by
    have hnext : next? (w ++ (ascii "null" ++ rest)) = some 'n' := next?_blank blank _
    have hafter : afterNext (w ++ (ascii "null" ++ rest)) = ascii "ull" ++ rest :=
      afterNext_blank blank _
    have hspell : spell "ull".toList (ascii "ull" ++ rest) = .ok ((), rest) :=
      spell_letters rfl rest
    change (if _ then _ else _) = _
    rw [if_pos hnext, hafter, hspell]
    rfl

theorem reads_some (reads : reader.Reads a s) (notNull : head? s ≠ some 'n') :
    reader.optional.Reads (some a) s where
  begins := reads.begins
  read {w rest} blank ends := by
    obtain ⟨b, t, rfl, hspace, -⟩ := reads.begins
    have hnext : next? (w ++ (b :: t ++ rest)) = head? (b :: t) :=
      next?_solid blank hspace _
    change (if _ then _ else _) = _
    rw [if_neg (hnext ▸ notNull), reads.read blank ends]
    rfl

end Reader

/-! ## Lists -/

/-- What stands in front of an item: nothing in front of the first one, a comma otherwise. -/
inductive Lead : Bool → Bytes → Prop where
  | first : Lead true []
  | comma {blank : Bytes} (h : IsBlank blank) : Lead false (blank ++ [0x2C])

theorem nextItem_lead (hlead : Lead first lead) (blank : IsBlank w) (begins : Begins s) :
    nextItem first (lead ++ (w ++ s)) = .ok (true, w ++ s) := by
  obtain ⟨c, hc, -, hclose, -⟩ := begins.next? blank
  cases hlead with
  | first => rw [List.nil_append, nextItem, hc]; simp only [if_neg hclose, if_true]
  | @comma before h =>
    have hnext : next? (before ++ [0x2C] ++ (w ++ s)) = some ',' := by
      rw [List.append_assoc]
      exact next?_blank h _
    have hafter : afterNext (before ++ [0x2C] ++ (w ++ s)) = w ++ s := by
      rw [List.append_assoc]
      exact afterNext_blank h _
    rw [nextItem, hnext]
    simp only [hafter, hc, if_neg hclose]
    rfl

theorem nextItem_close (blank : IsBlank w) (rest : Bytes) :
    nextItem first (w ++ 0x5D :: rest) = .ok (false, w ++ 0x5D :: rest) := by
  have hnext : next? (w ++ 0x5D :: rest) = some ']' := next?_blank blank _
  rw [nextItem, hnext]
  simp only [if_true]

section Items

variable {reader : Reader α} {taken values : List α} {value : α} {items : List Bytes}

theorem readItems_item (hitem : nextItem first s = .ok (true, rest))
    (hread : reader.read rest = .ok (value, next)) :
    readItems reader taken first s = readItems reader (value :: taken) false next := by
  conv_lhs => rw [readItems]
  split
  · next h => rw [hitem] at h; cases h
  · next h => rw [hitem] at h; cases h
  · next h =>
    rw [hitem] at h
    cases h
    split
    · next h => rw [hread] at h; cases h
    · next h => rw [hread] at h; cases h; rfl

theorem readItems_end (hend : nextItem first s = .ok (false, rest)) :
    readItems reader taken first s = .ok (taken.reverse, afterNext rest) := by
  rw [readItems]
  split
  · next h => rw [hend] at h; cases h
  · next h => rw [hend] at h; cases h; rfl
  · next h => rw [hend] at h; cases h

/-- Items are read up to the bracket that closes the array. -/
theorem readItems_items (h : ItemsText items s) (reads : List.Forall₂ reader.Reads values items)
    (hlead : Lead first lead) (taken : List α) (rest : Bytes) :
    readItems reader taken first (lead ++ (s ++ 0x5D :: rest)) =
      .ok (taken.reverse ++ values, rest) := by
  -- Behind the first item the rest is read with one value more taken and a comma in front.
  induction h generalizing values first lead taken with
  | @last before item after hbefore hafter =>
    cases reads with
    | @cons value _ _ _ hvalue hnil =>
      cases hnil
      simp only [List.append_assoc]
      have hends : Ends (after ++ 0x5D :: rest) := (ends_close .array rest).blank hafter
      have hread := hvalue.read hbefore hends
      rw [readItems_item (nextItem_lead hlead hbefore (hvalue.begins.append _)) hread,
        readItems_end (nextItem_close hafter rest), afterNext_blank hafter,
        List.reverse_cons]
      rfl
  | @cons before item after items t hbefore hafter more ih =>
    cases reads with
    | @cons value _ values _ hvalue hvalues =>
      simp only [List.append_assoc, List.cons_append]
      have hread := hvalue.read hbefore ((ends_comma (t ++ 0x5D :: rest)).blank hafter)
      have hnext := ih hvalues (.comma hafter) (value :: taken)
      rw [List.append_assoc, List.singleton_append] at hnext
      rw [readItems_item (nextItem_lead hlead hbefore (hvalue.begins.append _)) hread, hnext,
        List.reverse_cons, List.append_assoc, List.singleton_append]

theorem Reader.reads_list {Text : β → Bytes → Prop} {written : List β} {f : β → α}
    (list : ListText Text written s)
    (reads : ∀ b s, Text b s → reader.Reads (f b) s) :
    reader.list.Reads (written.map f) s := by
  obtain ⟨items, hwritten, hbracket⟩ := list
  have hitems : List.Forall₂ reader.Reads (written.map f) items :=
    List.forall₂_map_left_iff.2 (hwritten.imp reads)
  refine ⟨hbracket.begins, fun {w rest} blank _ => ?_⟩
  obtain ⟨inner, rfl, hinner⟩ := hbracket.exists_inner
  change readList reader _ = _
  simp only [Bracket.openByte, Bracket.closeByte, List.cons_append, List.append_assoc,
    List.nil_append]
  rw [readList, readHead_array blank]
  simp only [afterNext_cons (show isSpace 0x5B = false from rfl)]
  rcases hinner with ⟨rfl, hblank⟩ | h
  · cases hwritten
    rw [readItems_end (nextItem_close hblank rest), afterNext_blank hblank]
    rfl
  · exact readItems_items h hitems .first [] rest

end Items

/-! ## Records -/

theorem readKey_string {name : String} {key : Bytes} (string : StringText name key)
    (blank : IsBlank w) (rest : Bytes) : readKey (w ++ (key ++ rest)) = .ok (name, rest) := by
  cases string with
  | @quoted inner chars =>
    simp only [List.cons_append, List.append_assoc, List.nil_append]
    have hnext : next? (w ++ 0x22 :: (inner ++ 0x22 :: rest)) = some '\x22' := next?_blank blank _
    have hafter : afterNext (w ++ 0x22 :: (inner ++ 0x22 :: rest)) = inner ++ 0x22 :: rest :=
      afterNext_blank blank _
    rw [readKey, hnext]
    simp only [if_true, hafter]
    exact readText_string chars rest

theorem nextKey_lead {name : String} {key : Bytes} (hlead : Lead first lead) (blank : IsBlank w)
    (string : StringText name key) (rest : Bytes) :
    nextKey first (lead ++ (w ++ (key ++ rest))) = .ok (some name, rest) := by
  have hkey := readKey_string string blank rest
  cases hlead with
  | first =>
    obtain ⟨c, hc, -, -, hclose⟩ := ((Reader.reads_text string).begins.append rest).next? blank
    rw [List.nil_append, nextKey, hc]
    simp only [if_neg hclose, if_true, hkey]
    rfl
  | @comma before h =>
    have hnext : next? (before ++ [0x2C] ++ (w ++ (key ++ rest))) = some ',' := by
      rw [List.append_assoc]
      exact next?_blank h _
    have hafter : afterNext (before ++ [0x2C] ++ (w ++ (key ++ rest))) = w ++ (key ++ rest) := by
      rw [List.append_assoc]
      exact afterNext_blank h _
    rw [nextKey, hnext]
    simp only [hafter, hkey]
    rfl

theorem nextKey_close (blank : IsBlank w) (rest : Bytes) :
    nextKey first (w ++ 0x7D :: rest) = .ok (none, rest) := by
  have hnext : next? (w ++ 0x7D :: rest) = some '\x7d' := next?_blank blank _
  have hafter : afterNext (w ++ 0x7D :: rest) = rest := afterNext_blank blank _
  rw [nextKey, hnext]
  simp only [if_true, hafter]

namespace Schema

variable {schema : Schema σ} {seen : List String} {record : σ} {name : String} {change : σ → σ}
  {value : Bytes}

/-- A change that a member makes to a record, with the name of the member. -/
abbrev Effect (σ : Type) := String × (σ → σ)

/-- The record after changes. -/
def apply (record : σ) (effects : List (Effect σ)) : σ :=
  effects.foldl (fun record effect => effect.2 record) record

/-- A member of this name with this value makes the change. What is no field makes none. -/
def Makes (schema : Schema σ) (effect : Effect σ) (value : Bytes) : Prop :=
  match schema.field? effect.1 with
  | some field => field.reader.Reads effect.2 value
  | none => effect.2 = id ∧ ValueText value

theorem readMember_makes {before after : Bytes} {effect : Effect σ}
    (makes : schema.Makes effect value) (hbefore : IsBlank before) (hafter : IsBlank after) (ends : Ends rest) :
    schema.readMember effect.1 (before ++ 0x3A :: (after ++ (value ++ rest))) =
      .ok (effect.2, rest) := by
  simp only [readMember, readColon_blank hbefore, bind, Except.bind]
  unfold Makes at makes
  cases hfield : schema.field? effect.1 with
  | some field =>
    rw [hfield] at makes
    exact makes.read hafter ends
  | none =>
    rw [hfield] at makes
    obtain ⟨hid, hvalue⟩ := makes
    simp only [skipValue_value hvalue hafter ends, hid]
    rfl

theorem readMembers_member (hkey : nextKey first s = .ok (some name, rest))
    (fresh : name ∈ seen → schema.field? name = none)
    (hmember : schema.readMember name rest = .ok (change, next)) :
    schema.readMembers seen record first s =
      schema.readMembers (name :: seen) (change record) false next := by
  conv_lhs => rw [readMembers]
  split
  · next h => rw [hkey] at h; cases h
  · next h => rw [hkey] at h; cases h
  · next h =>
    rw [hkey] at h
    cases h
    have hnew : ¬((schema.field? name).isSome ∧ name ∈ seen) := by
      rintro ⟨hsome, hseen⟩
      rw [fresh hseen] at hsome
      cases hsome
    rw [if_neg hnew]
    split
    · next h => rw [hmember] at h; cases h
    · next h => rw [hmember] at h; cases h; rfl

theorem readMembers_end (hkey : nextKey first s = .ok (none, rest)) :
    schema.readMembers seen record first s = .ok (record, rest) := by
  rw [readMembers]
  split
  · next h => rw [hkey] at h; cases h
  · next h => rw [hkey] at h; cases h; rfl
  · next h => rw [hkey] at h; cases h

/-- Two members may stand in one record, in either order. -/
def Compatible (schema : Schema σ) (effect other : Effect σ) : Prop :=
  (effect.1 = other.1 → schema.field? effect.1 = none) ∧
    ∀ record, other.2 (effect.2 record) = effect.2 (other.2 record)

/-- A member is written and makes a change. -/
def Writes (schema : Schema σ) (effect : Effect σ) (member : Bytes × Bytes) : Prop :=
  StringText effect.1 member.1 ∧ schema.Makes effect member.2

/-- Members are read up to the brace that closes the object, and each makes its change. -/
theorem readMembers_items {effects : List (Effect σ)} {members : List (Bytes × Bytes)}
    {items : List Bytes} (h : ItemsText items s) (hmembers : List.Forall₂ MemberText members items)
    (writes : List.Forall₂ schema.Writes effects members)
    (compatible : effects.Pairwise schema.Compatible)
    (fresh : ∀ effect ∈ effects, effect.1 ∈ seen → schema.field? effect.1 = none)
    (hlead : Lead first lead) (record : σ) (rest : Bytes) :
    schema.readMembers seen record first (lead ++ (s ++ 0x7D :: rest)) =
      .ok (apply record effects, rest) := by
  -- What a member does to the record and to the names seen is where the rest starts from.
  induction h generalizing members effects first lead seen record with
  | @last before item after hbefore hafter =>
    cases hmembers with
    | @cons member _ _ _ hmember hnil =>
      cases hnil
      cases writes with
      | @cons effect _ _ _ hwrites hnil =>
        cases hnil
        obtain ⟨hstring, hmakes⟩ := hwrites
        cases hmember with
        | pair hcolon hvalue =>
          simp only [List.append_assoc, List.cons_append]
          have hends : Ends (after ++ 0x7D :: rest) := (ends_close .object rest).blank hafter
          rw [readMembers_member (nextKey_lead hlead hbefore hstring _)
              (fresh effect List.mem_cons_self) (readMember_makes hmakes hcolon hvalue hends),
            readMembers_end (nextKey_close hafter rest)]
          rfl
  | @cons before item after items t hbefore hafter more ih =>
    cases hmembers with
    | @cons member _ members _ hmember hmembers =>
      cases writes with
      | @cons effect _ effects _ hwrites hmore =>
        obtain ⟨hstring, hmakes⟩ := hwrites
        obtain ⟨hother, hcompatible⟩ := List.pairwise_cons.1 compatible
        -- A later member of the same name is no field, so it is not refused as a repetition.
        have hfresh : ∀ other ∈ effects, other.1 ∈ effect.1 :: seen →
            schema.field? other.1 = none := by
          intro other hmem hseen
          rcases List.mem_cons.1 hseen with hname | hseen
          · rw [hname]
            exact (hother other hmem).1 hname.symm
          · exact fresh other (List.mem_cons_of_mem _ hmem) hseen
        have hnext := ih hmembers hmore hcompatible hfresh (.comma hafter) (effect.2 record)
        rw [List.append_assoc, List.singleton_append] at hnext
        cases hmember with
        | pair hcolon hvalue =>
          simp only [List.append_assoc, List.cons_append]
          have hends : Ends (after ++ 0x2C :: (t ++ 0x7D :: rest)) := (ends_comma _).blank hafter
          rw [readMembers_member (nextKey_lead hlead hbefore hstring _)
              (fresh effect List.mem_cons_self) (readMember_makes hmakes hcolon hvalue hends),
            hnext]
          rfl

theorem Compatible.symm {effect other : Effect σ} (h : schema.Compatible effect other) :
    schema.Compatible other effect := by
  refine ⟨fun hname => ?_, fun record => (h.2 record).symm⟩
  rw [hname]
  exact h.1 hname.symm

/-- A change of what is no field. -/
def Unknown (schema : Schema σ) (effect : Effect σ) : Prop :=
  schema.field? effect.1 = none ∧ effect.2 = id

theorem Unknown.compatible {effect : Effect σ} (unknown : schema.Unknown effect)
    (other : Effect σ) : schema.Compatible effect other := by
  refine ⟨fun _ => unknown.1, fun record => ?_⟩
  rw [unknown.2, id_eq, id_eq]

theorem apply_unknown {effects : List (Effect σ)}
    (unknown : ∀ effect ∈ effects, schema.Unknown effect) (record : σ) : apply record effects = record := by
  induction effects generalizing record with
  | nil => rfl
  | cons effect effects ih =>
    obtain ⟨heffect, heffects⟩ := List.forall_mem_cons.1 unknown
    change apply (effect.2 record) effects = record
    rw [heffect.2, id_eq]
    exact ih heffects record

/-- The order of changes that are compatible does not matter. -/
theorem apply_perm {effects others : List (Effect σ)} (perm : effects.Perm others)
    (compatible : others.Pairwise schema.Compatible) (record : σ) :
    apply record effects = apply record others := by
  refine perm.foldl_eq' (fun effect heffect other hother record => ?_) record
  have hcommute : ∀ ⦃e⦄, e ∈ others → ∀ ⦃o⦄, o ∈ others →
      ∀ record, o.2 (e.2 record) = e.2 (o.2 record) :=
    List.Pairwise.forall_of_forall_of_flip (fun _ _ _ => rfl) (compatible.imp And.right)
      (compatible.imp fun h => h.symm.2)
  exact hcommute (perm.subset heffect) (perm.subset hother) record

/-- A member that has one of the texts of the entry makes the change. -/
def Grants (schema : Schema σ) (entry : Entry) (effect : Effect σ) : Prop :=
  entry.1 = effect.1 ∧ ∀ s, entry.2 s → schema.Makes effect s

theorem Grants.writes {entry : Entry} {effect : Effect σ} {member : Bytes × Bytes}
    (grants : schema.Grants entry effect) (written : entry.Written member) :
    schema.Writes effect member :=
  ⟨grants.1 ▸ written.1, grants.2 _ written.2⟩

theorem grants_field {reader : Reader α} {put : α → σ → σ} {a : α} {Text : Bytes → Prop}
    {mayEnd : Bool} (hfield : schema.field? name = some ⟨name, reader.map put, mayEnd⟩)
    (reads : ∀ s, Text s → reader.Reads a s) : schema.Grants (name, Text) (name, put a) := by
  refine ⟨rfl, fun s hs => ?_⟩
  rw [Makes, hfield]
  exact Reader.reads_map (reads s hs) put

theorem writes_of_grants {order : List Entry} {changes : List (Effect σ)}
    {members : List (Bytes × Bytes)} (grants : List.Forall₂ schema.Grants order changes)
    (written : List.Forall₂ Entry.Written order members) :
    List.Forall₂ schema.Writes changes members := by
  induction grants generalizing members with
  | nil =>
    cases written
    exact .nil
  | cons hgrants _ ih =>
    cases written with
    | cons hwritten hmore => exact .cons (hgrants.writes hwritten) (ih hmore)

/-- An object is read if its members are written and compatible. -/
theorem reads_object {changes : List (Effect σ)} {members : List (Bytes × Bytes)}
    (object : ObjectText members s) (writes : List.Forall₂ schema.Writes changes members)
    (compatible : changes.Pairwise schema.Compatible) :
    schema.reader.Reads (apply schema.absent changes) s := by
  obtain ⟨items, hitems, hbracket⟩ := object
  refine ⟨hbracket.begins, fun {w rest} blank _ => ?_⟩
  obtain ⟨inner, rfl, hinner⟩ := hbracket.exists_inner
  change schema.read _ = _
  simp only [Bracket.openByte, Bracket.closeByte, List.cons_append, List.append_assoc,
    List.nil_append]
  rw [read, readHead_object blank]
  simp only [afterNext_cons (show isSpace 0x7B = false from rfl)]
  rcases hinner with ⟨rfl, hblank⟩ | h
  · cases hitems
    cases writes
    exact readMembers_end (nextKey_close hblank rest)
  · exact readMembers_items h hitems writes compatible
      (fun _ _ hseen => absurd hseen List.not_mem_nil) .first schema.absent rest

theorem field?_eq_none (h : name ∉ schema.fields.map Field.name) : schema.field? name = none := by
  refine List.find?_eq_none.2 fun field hfield heq => h ?_
  rw [← beq_iff_eq.1 heq]
  exact List.mem_map_of_mem hfield

/-- The record is what the known members make of the empty one, wherever they stand. -/
theorem reads_record {known : List Entry} {effects : List (Effect σ)}
    (record : RecordText (schema.fields.map Field.name) known s)
    (grants : List.Forall₂ schema.Grants known effects)
    (compatible : effects.Pairwise schema.Compatible) :
    schema.reader.Reads (apply schema.absent effects) s := by
  obtain ⟨others, order, members, hothers, hperm, hwritten, hobject⟩ := record
  -- With a change that does nothing for each of the other members, there is one for every member.
  let unknown : List (Effect σ) := others.map fun entry => (entry.1, id)
  have hunknown : ∀ effect ∈ unknown, schema.Unknown effect := by
    intro effect heffect
    obtain ⟨entry, hentry, rfl⟩ := List.mem_map.1 heffect
    exact ⟨field?_eq_none (hothers entry hentry).1, rfl⟩
  have hidle : List.Forall₂ schema.Grants others unknown := by
    refine List.forall₂_map_right_iff.2 (List.forall₂_same.2 fun entry hentry => ⟨rfl, ?_⟩)
    obtain ⟨hname, hvalue⟩ := hothers entry hentry
    intro s hs
    rw [Makes, field?_eq_none hname]
    exact ⟨rfl, hvalue ▸ hs⟩
  -- The changes in the order of the text.
  obtain ⟨changes, hchanges, hreordered⟩ :=
    List.perm_comp_forall₂ hperm (List.rel_append grants hidle)
  have hall : (effects ++ unknown).Pairwise schema.Compatible := by
    refine List.pairwise_append.2 ⟨compatible, ?_, fun effect _ other hother => ?_⟩
    · exact List.pairwise_of_forall_mem_list fun effect heffect other _ =>
        (hunknown effect heffect).compatible other
    · exact ((hunknown other hother).compatible effect).symm
  have hcompatible : changes.Pairwise schema.Compatible :=
    (hreordered.pairwise_iff Compatible.symm).2 hall
  have happly : apply schema.absent changes = apply schema.absent effects := by
    rw [apply_perm hreordered hall, apply, List.foldl_append]
    exact apply_unknown hunknown _
  rw [← happly]
  exact reads_object hobject (writes_of_grants hchanges hwritten) hcompatible

end Schema

/-! ## Values that may be missing -/

theorem StringText.head?_ne {content : String} (string : StringText content s) :
    head? s ≠ some 'n' := by
  cases string with
  | quoted chars =>
    change some '\x22' ≠ some 'n'
    decide

theorem WordText.head?_ne {n : UInt32} (digits : WordText n s) : head? s ≠ some 'n' := by
  have hne := (wholeText_write n.toNat).toDigitsText.head?_ne (b := 0x6E) rfl []
  rwa [List.append_nil, ← digits] at hne

theorem RecordText.head?_ne {names : List String} {known : List Entry}
    (record : RecordText names known s) : head? s ≠ some 'n' := by
  obtain ⟨others, order, members, hothers, hperm, hwritten, items, hitems, hbracket⟩ := record
  obtain ⟨inner, rfl, -⟩ := hbracket.exists_inner
  change some '\x7b' ≠ some 'n'
  decide

namespace Presence

variable {γ : Type} {schema : Schema σ} {name : String} {f : α → β} {put : Option β → σ → σ}

theorem value?_eq_some_iff {presence : Presence α} {a : α} :
    presence.value? = some a ↔ presence = .present a := by
  cases presence <;> simp [value?]

/-- The change that a value makes to a record if it is read as its image under `f`, or no change. -/
def effects (name : String) (f : α → β) (put : Option β → σ → σ) :
    Presence α → List (Schema.Effect σ)
  | .absent => []
  | .null => [(name, put none)]
  | .present a => [(name, put (some (f a)))]

theorem grants_entries {reader : Reader β} {Text : α → Bytes → Prop} {mayEnd : Bool}
    (hfield : schema.field? name = some ⟨name, reader.optional.map put, mayEnd⟩)
    (reads : ∀ a s, Text a s → reader.Reads (f a) s)
    (notNull : ∀ a s, Text a s → head? s ≠ some 'n') (presence : Presence α) :
    List.Forall₂ schema.Grants (presence.entries name Text) (presence.effects name f put) := by
  cases presence with
  | absent => exact .nil
  | null =>
    exact .cons (Schema.grants_field hfield fun _ hs => hs ▸ Reader.reads_null reader) .nil
  | present a =>
    exact .cons (Schema.grants_field hfield fun s hs =>
      Reader.reads_some (reads a s hs) (notNull a s hs)) .nil

theorem exists_put_of_mem_effects {presence : Presence α} {effect : Schema.Effect σ}
    (h : effect ∈ presence.effects name f put) : ∃ value, effect = (name, put value) := by
  cases presence with
  | absent => cases h
  | null => exact ⟨none, List.mem_singleton.1 h⟩
  | present a => exact ⟨some (f a), List.mem_singleton.1 h⟩

theorem pairwise_effects (presence : Presence α) :
    (presence.effects name f put).Pairwise schema.Compatible := by
  cases presence with
  | absent => exact .nil
  | null => exact List.pairwise_singleton _ _
  | present a => exact List.pairwise_singleton _ _

/-- Changes to two fields are compatible. -/
theorem compatible_effects {δ : Type} {other : String} {g : γ → δ} {putOther : Option δ → σ → σ}
    (presence : Presence α) (presenceOther : Presence γ) (hname : name ≠ other)
    (hput : ∀ value next record,
      putOther next (put value record) = put value (putOther next record)) :
    ∀ effect ∈ presence.effects name f put, ∀ effectOther ∈ presenceOther.effects other g putOther,
      schema.Compatible effect effectOther := by
  intro effect heffect effectOther hother
  obtain ⟨value, rfl⟩ := exists_put_of_mem_effects heffect
  obtain ⟨next, rfl⟩ := exists_put_of_mem_effects hother
  exact ⟨fun h => absurd h hname, hput value next⟩

theorem apply_effects {record : σ} (presence : Presence α) (hrecord : put none record = record)
    (others : List (Schema.Effect σ)) :
    Schema.apply record (presence.effects name f put ++ others) =
      Schema.apply (put (presence.value?.map f) record) others := by
  cases presence with
  | absent => rw [effects, List.nil_append, value?, Option.map_none, hrecord]
  | null => rfl
  | present a => rfl

end Presence

/-! ## Whole texts -/

theorem read_blank {reader : Reader α} {a : α} {before after : Bytes} (reads : reader.Reads a s)
    (hbefore : IsBlank before) (hafter : IsBlank after) :
    Json.read reader (before ++ (s ++ after)) = .ok a := by
  have hends : Ends after := by
    simpa using ends_nil.blank hafter
  have hnext : next? after = none := by
    rw [← List.append_nil after]
    exact next?_blank hafter []
  rw [Json.read, reads.read hbefore hends]
  simp only [hnext]
  rfl

end EpisodeCut.Json
