import EpisodeCut.Artifacts
import EpisodeCut.Proofs.Text.Numeral
import EpisodeCut.Proofs.Text.Split
import EpisodeCut.Segment

/-!
# Names of generated files

A name that is put into a directory is the last component of the path (`Path.components_join`). The
files that are generated beside an output therefore have the components of its directory and then
their own name (`ArtifactNames.components_path`). Their extension is that of a clip or of an image,
so no document is one of them (`ArtifactNames.same_path_of_isDocument`).
-/

set_option autoImplicit false

namespace EpisodeCut

/-! ## Names in directories -/

namespace Path

/-- A text that is the name of one file in a directory. -/
structure IsName (name : String) : Prop where
  undivided : '/' ∉ name.toList
  counted : isFiller name = false
  downward : name ≠ ".."

theorem toList_join (dir : Path) (name : String) :
    ∃ front, (dir.join name).toList = front ++ name.toList := by
  rw [join]
  split
  · exact ⟨[], rfl⟩
  · split
    · exact ⟨dir.toList, String.toList_append⟩
    · exact ⟨(dir ++ "/").toList, String.toList_append⟩

theorem pieces_append_slash {path dir : Path} {name : String} (undivided : '/' ∉ name.toList)
    (h : path.toList = dir.toList ++ '/' :: name.toList) :
    pieces path = ((pieces dir).1, (pieces dir).2 ++ [name]) := by
  have hsplit : path.toList.splitOn '/' = dir.toList.splitOn '/' ++ [name.toList] := by
    rw [h, List.splitOn_append_cons_self, List.splitOn_eq_singleton undivided]
  cases hdir : dir.toList.splitOn '/' with
  | nil => exact absurd hdir (List.splitOn_ne_nil _ _)
  | cons first rest =>
    rw [hdir] at hsplit
    simp only [pieces, hsplit, hdir, List.cons_append, List.map_append, List.map_cons,
      List.map_nil, String.ofList_toList]

theorem leading_eq_of_ne {path other : Path} (hpath : path ≠ "") (hother : other ≠ "")
    (first : String) : leading path first = leading other first := by
  simp only [leading, beq_eq_false_iff_ne.2 hpath, beq_eq_false_iff_ne.2 hother]

/-- One more piece that is a name is one more component, whatever fillers the pieces before it had. -/
theorem components_eq_append {path dir : Path} {name first : String} {front rest : List String}
    (h : IsName name) (hpath : path ≠ "") (hdir : dir ≠ "")
    (pathPieces : pieces path = (first, front ++ [name])) (dirPieces : pieces dir = (first, rest))
    (same : rest.filter (!isFiller ·) = front.filter (!isFiller ·)) :
    path.components = dir.components ++ [.name name] := by
  have hname : Component.ofPiece name = .name name := by
    rw [Component.ofPiece, beq_eq_false_iff_ne.2 h.downward]
    rfl
  have hkept : [name].filter (!isFiller ·) = [name] := by
    simp [h.counted]
  simp only [components]
  rw [pathPieces, dirPieces, same, List.filter_append, hkept, List.map_append, List.map_singleton,
    hname, leading_eq_of_ne hpath hdir, List.append_assoc]

/-- A name in a directory is one more component. -/
theorem components_join (dir : Path) {name : String} (h : IsName name) :
    (dir.join name).components = dir.components ++ [.name name] := by
  have hfilled : name ≠ "" := by
    rintro rfl
    exact absurd h.counted (by decide)
  have hrelative : name.startsWith "/" = false := by
    rw [Bool.eq_false_iff]
    intro hslash
    obtain ⟨rest, hrest⟩ := String.startsWith_string_iff.1 hslash
    apply h.undivided
    rw [← hrest]
    exact List.mem_append_left _ List.mem_cons_self
  have hne : ∀ front : String, front ++ name ≠ "" := by
    intro front heq
    exact hfilled (String.append_eq_empty_iff.1 heq).2
  rw [join, hrelative, Bool.false_or]
  split
  · next hempty =>
    -- Without a directory the name is a path of its own.
    have hpieces : pieces name = (name, []) := by
      rw [pieces, List.splitOn_eq_singleton h.undivided]
      simp
    have hplain : name ≠ "." := by
      rintro rfl
      exact absurd h.counted (by decide)
    have hnone : components "" = [] := by decide
    rw [beq_iff_eq.1 hempty, hnone, components, hpieces]
    simp [leading, Component.ofPiece, hfilled, hplain, h.downward]
  · next hdir =>
    have hdir : dir ≠ "" := by simpa using hdir
    split
    · next hslash =>
      -- The slash at the end of the directory leaves a piece there that is a filler.
      rw [← String.endsWith_toSlice, String.Slice.endsWith_string_iff] at hslash
      obtain ⟨front, hfront⟩ := hslash
      have hdirText : dir.toList = front ++ ['/'] := by
        simpa using hfront.symm
      have hdirPieces : pieces dir = ((pieces (.ofList front)).1, (pieces (.ofList front)).2 ++ [""]) := by
        refine pieces_append_slash (by simp) ?_
        simp [hdirText]
      have hpathPieces : pieces (dir ++ name) =
          ((pieces (.ofList front)).1, (pieces (.ofList front)).2 ++ [name]) := by
        refine pieces_append_slash h.undivided ?_
        simp [hdirText]
      refine components_eq_append h (hne _) hdir hpathPieces hdirPieces ?_
      simp [isFiller]
    · refine components_eq_append h (hne _) hdir (pieces_append_slash h.undivided ?_) rfl rfl
      simp

theorem undivided_of_piece {path : Path} {piece : String}
    (h : piece ∈ (pieces path).1 :: (pieces path).2) : '/' ∉ piece.toList := by
  cases hsplit : path.toList.splitOn '/' with
  | nil => exact absurd hsplit (List.splitOn_ne_nil _ _)
  | cons first rest =>
    have hpieces : (pieces path).1 :: (pieces path).2 = (first :: rest).map String.ofList := by
      simp only [pieces, hsplit, List.map_cons]
    rw [hpieces] at h
    obtain ⟨part, hpart, rfl⟩ := List.mem_map.1 h
    rw [String.toList_ofList]
    apply Text.not_mem_of_mem_splitOn
    rw [hsplit]
    exact hpart

theorem Component.eq_of_ofPiece_eq_name {piece text : String} (h : ofPiece piece = .name text) :
    piece = text := by
  rw [ofPiece] at h
  split at h
  · cases h
  · cases h
    rfl

/-- A component that is a name is one piece of the path. -/
theorem undivided_of_mem_components {path : Path} {text : String}
    (h : .name text ∈ path.components) : '/' ∉ text.toList := by
  have hpiece : text ∈ (pieces path).1 :: (pieces path).2 := by
    rcases List.mem_append.1 h with h | h
    · rw [leading] at h
      split at h
      · cases h
      · split at h
        · simp at h
        · split at h
          · simp at h
          · rw [Component.eq_of_ofPiece_eq_name (List.mem_singleton.1 h).symm]
            exact List.mem_cons_self
    · obtain ⟨piece, hpiece, hname⟩ := List.mem_map.1 h
      rw [← Component.eq_of_ofPiece_eq_name hname]
      exact List.mem_cons_of_mem _ (List.mem_filter.1 hpiece).1
  exact undivided_of_piece hpiece

theorem undivided_of_fileName? {path : Path} {name : String} (h : path.fileName? = some name) :
    '/' ∉ name.toList := by
  simp only [fileName?] at h
  split at h
  · next text hlast =>
    cases h
    exact undivided_of_mem_components (List.mem_of_getLast? hlast)
  · cases h

/-- The part of a name before its extension consists of characters of the name. -/
theorem mem_of_mem_splitAtDot {name : String} {c : Char} (dotless : c ≠ '.')
    (h : c ∈ (splitAtDot name).1.toList) : c ∈ name.toList := by
  simp only [splitAtDot] at h
  split at h
  · next last before rest hsplit =>
    split at h
    · exact h
    · rw [String.toList_ofList] at h
      rcases Text.mem_intercalate h with rfl | ⟨part, hpart, hc⟩
      · exact absurd rfl dotless
      · have hpiece : part ∈ name.toList.splitOn '.' := by
          rw [← List.mem_reverse, hsplit]
          exact List.mem_cons_of_mem last (List.mem_reverse.1 hpart)
        exact Text.mem_of_mem_splitOn hpiece hc
  · exact h

/-- A name is divided at its last dot. -/
theorem splitAtDot_eq {name : String} {front extension : List Char}
    (h : name.toList = front ++ '.' :: extension) (nonempty : front ≠ [])
    (dotless : '.' ∉ extension) :
    splitAtDot name = (String.ofList front, some (String.ofList extension)) := by
  have hsplit : (name.toList.splitOn '.').reverse = extension :: (front.splitOn '.').reverse := by
    rw [h, List.splitOn_append_cons_self, List.splitOn_eq_singleton dotless, List.reverse_append]
    rfl
  cases hfront : (front.splitOn '.').reverse with
  | nil => exact absurd (List.reverse_eq_nil_iff.1 hfront) (List.splitOn_ne_nil _ _)
  | cons before rest =>
    have hback : ['.'].intercalate (before :: rest).reverse = front := by
      rw [← hfront, List.reverse_reverse, List.intercalate_splitOn]
    simp only [splitAtDot, hsplit, hfront, hback]
    rw [if_neg (by simpa using nonempty)]

/-- Paths that are the same have the same extension. -/
theorem extension?_eq_of_same {path other : Path} (h : path.same other = true) :
    path.extension? = other.extension? := by
  rw [extension?, extension?, fileName?, fileName?, beq_iff_eq.1 h]

end Path

/-! ## Generated files -/

namespace ArtifactNames

variable {names : ArtifactNames} {kind : MediaKind} {number : Nat}

theorem toList_fileName (names : ArtifactNames) (kind : MediaKind) (number : Nat) :
    (names.fileName kind number).toList =
      "temp_".toList ++ (kind.name.toList ++ '_' :: (names.stem.toList ++
        '_' :: Text.Numeral.writePadded 3 number)) ++ '.' :: kind.extension.toList := by
  simp [fileName, Text.Numeral.padded]

theorem toList_path (names : ArtifactNames) (kind : MediaKind) (number : Nat) :
    ∃ front, (names.path kind number).toList = front ++ '.' :: kind.extension.toList := by
  obtain ⟨front, hfront⟩ := Path.toList_join names.directory (names.fileName kind number)
  rw [toList_fileName, ← List.append_assoc] at hfront
  exact ⟨_, hfront⟩

/-- The stem of the names beside an output is that of a file name. -/
theorem undivided_stem_ofOutput (output : Path) : '/' ∉ (ofOutput output).stem.toList := by
  simp only [ofOutput, Path.fileStem?]
  cases hname : output.fileName? with
  | none => decide
  | some name =>
    intro h
    exact Path.undivided_of_fileName? hname (Path.mem_of_mem_splitAtDot (by decide) h)

theorem isName_fileName (undivided : '/' ∉ names.stem.toList) (kind : MediaKind) (number : Nat) :
    Path.IsName (names.fileName kind number) := by
  have hbegin : ∀ other : String, other.toList.head? ≠ some 't' →
      names.fileName kind number ≠ other := by
    intro other hother heq
    apply hother
    rw [← heq, toList_fileName]
    rfl
  refine ⟨?_, ?_, hbegin ".." (by decide)⟩
  · rw [toList_fileName]
    have hdigits : '/' ∉ Text.Numeral.writePadded 3 number := by
      intro h
      exact absurd (Text.Numeral.isDigit_of_mem_writePadded h) (by decide)
    cases kind <;> simp [MediaKind.name, MediaKind.extension, undivided, hdigits]
  · rw [Path.isFiller, beq_eq_false_iff_ne.2 (hbegin "" (by decide)),
      beq_eq_false_iff_ne.2 (hbegin "." (by decide))]
    rfl

/-- A generated file has the components of its directory and then its own name. -/
theorem components_path (undivided : '/' ∉ names.stem.toList) (kind : MediaKind) (number : Nat) :
    (names.path kind number).components =
      names.directory.components ++ [.name (names.fileName kind number)] :=
  Path.components_join names.directory (isName_fileName undivided kind number)

theorem extension?_path (undivided : '/' ∉ names.stem.toList) (kind : MediaKind) (number : Nat) :
    (names.path kind number).extension? = some kind.extension := by
  have hname : (names.path kind number).fileName? = some (names.fileName kind number) := by
    simp only [Path.fileName?, components_path undivided, List.getLast?_concat]
  have hdotless : '.' ∉ kind.extension.toList := by
    cases kind <;> decide
  rw [Path.extension?, hname, Option.bind_some,
    Path.splitAtDot_eq (toList_fileName names kind number) (by simp) hdotless,
    String.ofList_toList]

/-- No document is a generated file. -/
theorem same_path_of_isDocument (undivided : '/' ∉ names.stem.toList) (kind : MediaKind)
    (number : Nat) {file : Path} (document : FrameSource.isDocument file = true) :
    (names.path kind number).same file = false := by
  rw [Bool.eq_false_iff]
  intro hsame
  rw [FrameSource.isDocument, ← Path.extension?_eq_of_same hsame, extension?_path undivided]
    at document
  cases kind with
  | audio => exact absurd document (by decide +kernel)
  | video => exact absurd document (by decide +kernel)
  | frame => exact absurd document (by decide +kernel)

end ArtifactNames

end EpisodeCut
