import EpisodeCut.Media.FileMaterializer
import EpisodeCut.Proofs.Artifacts.Names

/-!
# Generated files are different files

The parent of a path has all of its components but the last one (`Path.components_parent`), so a
scratch file stands beside its clip (`FileMaterializer.components_scratchPath`). The files that are
made for an output, those that hold a segment and the scratch files beside them, have paths that are
the same for the same file only, and none of them is the output (`GeneratedFile.same_path_iff`).
-/

set_option autoImplicit false

namespace EpisodeCut

/-! ## Parents -/

namespace Path

theorem exists_eq_dropFillers_append (pieces : List String) :
    ∃ tail, pieces = dropFillers pieces ++ tail ∧ ∀ piece ∈ tail, isFiller piece = true := by
  refine ⟨(pieces.reverse.takeWhile isFiller).reverse, ?_, ?_⟩
  · rw [dropFillers, ← List.reverse_append, List.takeWhile_append_dropWhile, List.reverse_reverse]
  · intro piece hpiece
    exact List.all_eq_true.1 List.all_takeWhile piece (List.mem_reverse.1 hpiece)

theorem mem_of_mem_dropFillers {pieces : List String} {piece : String}
    (h : piece ∈ dropFillers pieces) : piece ∈ pieces := by
  obtain ⟨tail, hpieces, -⟩ := exists_eq_dropFillers_append pieces
  rw [hpieces]
  exact List.mem_append_left tail h

/-- Trailing fillers stand for no component. -/
theorem filter_dropFillers (pieces : List String) :
    (dropFillers pieces).filter (!isFiller ·) = pieces.filter (!isFiller ·) := by
  obtain ⟨tail, hpieces, htail⟩ := exists_eq_dropFillers_append pieces
  have hnone : tail.filter (!isFiller ·) = [] := by
    rw [List.filter_eq_nil_iff]
    intro piece hpiece
    simp [htail piece hpiece]
  have hsplit := congrArg (List.filter (!isFiller ·)) hpieces
  rw [List.filter_append, hnone, List.append_nil] at hsplit
  exact hsplit.symm

theorem isFiller_last_dropFillers {pieces front : List String} {last : String}
    (h : dropFillers pieces = front ++ [last]) : isFiller last = false := by
  have hhead := List.head?_dropWhile_not isFiller pieces.reverse
  have hlast : (pieces.reverse.dropWhile isFiller).head? = some last := by
    rw [← List.getLast?_reverse, ← dropFillers, h, List.getLast?_concat]
  rw [hlast] at hhead
  simpa using hhead

theorem dropLast_leading (path : Path) (first : String) : (leading path first).dropLast = [] := by
  rw [leading]
  split
  · rfl
  · split
    · rfl
    · split
      · rfl
      · rfl

/-- The pieces of a text that is put together from pieces. -/
theorem pieces_intercalate {first : String} {rest : List String}
    (undivided : ∀ piece ∈ first :: rest, '/' ∉ piece.toList) :
    pieces ("/".intercalate (first :: rest)) = (first, rest) := by
  have hsplit : ("/".intercalate (first :: rest)).toList.splitOn '/' =
      (first :: rest).map String.toList := by
    rw [String.toList_intercalate]
    refine List.splitOn_intercalate '/' ?_ (by simp)
    intro part hpart
    obtain ⟨piece, hpiece, rfl⟩ := List.mem_map.1 hpart
    exact undivided piece hpiece
  simp only [pieces, hsplit, List.map_cons, List.map_map, String.ofList_toList]
  simp [Function.comp_def]

/-- A path with several pieces is not empty. -/
theorem ne_empty_of_pieces {path : Path} {first : String} {rest : List String}
    (h : pieces path = (first, rest)) (hrest : rest ≠ []) : path ≠ "" := by
  rintro rfl
  have hempty : pieces "" = ("", []) := by decide
  rw [hempty] at h
  cases h
  exact hrest rfl

/-- The parent has the pieces that come before the last one that is no filler. -/
theorem parent?_eq {path : Path} {first last : String} {rest front : List String}
    (hpieces : pieces path = (first, rest)) (hrest : dropFillers rest = front ++ [last]) :
    path.parent? = some (match dropFillers front with
      | [] => if first == "" then "/" else first
      | kept => "/".intercalate (first :: kept)) := by
  simp only [parent?, hpieces, hrest]
  split
  · next hnone => simp at hnone
  · rw [List.dropLast_concat]
    cases dropFillers front with
    | nil => rfl
    | cons piece kept => rfl

/-- The parent of a path has its components without the last one. -/
theorem components_parent (path : Path) :
    (path.parent?.getD "").components = path.components.dropLast := by
  have hundivided : ∀ piece ∈ (pieces path).1 :: (pieces path).2, '/' ∉ piece.toList :=
    fun _ => undivided_of_piece
  cases hpieces : pieces path with
  | mk first rest =>
    rw [hpieces] at hundivided
    have hcomponents : path.components =
        leading path first ++ ((dropFillers rest).filter (!isFiller ·)).map Component.ofPiece := by
      rw [filter_dropFillers, components, hpieces]
    rcases List.eq_nil_or_concat (dropFillers rest) with hrest | ⟨front, last, hrest⟩
    · -- There is one piece at most, and nothing above it.
      have hparent : path.parent?.getD "" = "" := by
        simp only [parent?, hpieces, hrest]
        split <;> rfl
      have hnone : components "" = [] := by decide
      rw [hparent, hnone, hcomponents, hrest, List.filter_nil, List.map_nil, List.append_nil,
        dropLast_leading]
    · rw [List.concat_eq_append] at hrest
      have hpath : path ≠ "" := ne_empty_of_pieces hpieces (by rintro rfl; simp [dropFillers] at hrest)
      have hlast : isFiller last = false := isFiller_last_dropFillers hrest
      have hdropLast : path.components.dropLast =
          leading path first ++ (front.filter (!isFiller ·)).map Component.ofPiece := by
        rw [hcomponents, hrest, List.filter_append, List.filter_cons_of_pos (by simp [hlast]),
          List.filter_nil, List.map_append, ← List.append_assoc]
        exact List.dropLast_concat
      rw [parent?_eq hpieces hrest, Option.getD_some, hdropLast, ← filter_dropFillers front]
      cases hfront : dropFillers front with
      | nil =>
        simp only [List.filter_nil, List.map_nil, List.append_nil]
        split
        · next hroot =>
          have hslash : components "/" = [.root] := by decide
          rw [hslash, leading, beq_false_of_ne hpath, hroot]
          rfl
        · next hfirst =>
          have hfirst : first ≠ "" := fun h => hfirst (beq_iff_eq.2 h)
          have hsingle : pieces first = (first, []) := by
            rw [pieces, List.splitOn_eq_singleton (hundivided first List.mem_cons_self)]
            simp
          rw [components, hsingle, leading_eq_of_ne hfirst hpath]
          exact List.append_nil _
      | cons piece kept =>
        have hpieces' : pieces ("/".intercalate (first :: piece :: kept)) = (first, piece :: kept) := by
          apply pieces_intercalate
          intro part hpart
          apply hundivided
          rcases List.mem_cons.1 hpart with rfl | hpart
          · exact List.mem_cons_self
          · refine List.mem_cons_of_mem _ (mem_of_mem_dropFillers ?_)
            rw [hrest]
            exact List.mem_append_left _ (mem_of_mem_dropFillers (hfront ▸ hpart))
        have hparent := ne_empty_of_pieces hpieces' (List.cons_ne_nil piece kept)
        simp only
        rw [components, hpieces', leading_eq_of_ne hparent hpath]

/-- A name in the place of the file name of a path is its last component. -/
theorem components_withFileName {path : Path} {old name : String} (h : path.fileName? = some old)
    (hname : IsName name) :
    (path.withFileName name).components = path.components.dropLast ++ [.name name] := by
  rw [withFileName, h]
  simp only
  rw [components_join _ hname, components_parent]

end Path

/-! ## Scratch files -/

namespace FileMaterializer

/-- The name of a scratch file is that of its clip with two low lines in front. -/
theorem isName_scratch {name : String} (undivided : '/' ∉ name.toList) :
    Path.IsName ("__" ++ name) := by
  have hbegin : ∀ other : String, other.toList.head? ≠ some '_' → "__" ++ name ≠ other := by
    intro other hother heq
    apply hother
    rw [← heq, String.toList_append]
    rfl
  refine ⟨?_, ?_, hbegin ".." (by decide)⟩
  · rw [String.toList_append, List.mem_append, not_or]
    exact ⟨by decide, undivided⟩
  · rw [Path.isFiller, beq_eq_false_iff_ne.2 (hbegin "" (by decide)),
      beq_eq_false_iff_ne.2 (hbegin "." (by decide))]
    rfl

/-- A scratch file stands beside its clip. -/
theorem components_scratchPath {media : Path} {name : String} (h : media.fileName? = some name) :
    (scratchPath media).components = media.components.dropLast ++ [.name ("__" ++ name)] := by
  rw [scratchPath, h]
  exact Path.components_withFileName h (isName_scratch (Path.undivided_of_fileName? h))

end FileMaterializer

/-! ## The files that are made for an output -/

/-- A file that is made on the way to an episode: one that holds a segment, or the scratch file beside
such a file. -/
inductive GeneratedFile where
  | segment (kind : MediaKind) (number : Nat)
  | scratch (kind : MediaKind) (number : Nat)
  deriving DecidableEq, Repr

namespace GeneratedFile

/-- The name of the file. -/
def name (names : ArtifactNames) : GeneratedFile → String
  | segment kind number => names.fileName kind number
  | scratch kind number => "__" ++ names.fileName kind number

/-- The path of the file. -/
def path (names : ArtifactNames) : GeneratedFile → Path
  | segment kind number => names.path kind number
  | scratch kind number => FileMaterializer.scratchPath (names.path kind number)

variable {names : ArtifactNames}

/-- A generated file has the components of its directory and then its own name. -/
theorem components_path (undivided : '/' ∉ names.stem.toList) (file : GeneratedFile) :
    (file.path names).components = names.directory.components ++ [.name (file.name names)] := by
  cases file with
  | segment kind number => exact ArtifactNames.components_path undivided kind number
  | scratch kind number =>
    have hcomponents := ArtifactNames.components_path undivided kind number
    have hname : (names.path kind number).fileName? = some (names.fileName kind number) := by
      simp only [Path.fileName?, hcomponents, List.getLast?_concat]
    rw [path, FileMaterializer.components_scratchPath hname, hcomponents, List.dropLast_concat]
    rfl

theorem dotless_extension (kind : MediaKind) : '.' ∉ kind.extension.toList := by
  cases kind <;> decide

theorem fileName_injective {kind other : MediaKind} {number n : Nat}
    (h : names.fileName kind number = names.fileName other n) : kind = other ∧ number = n := by
  have hsplit := Path.splitAtDot_eq (ArtifactNames.toList_fileName names kind number) (by simp)
    (dotless_extension kind)
  have hsplit' := Path.splitAtDot_eq (ArtifactNames.toList_fileName names other n) (by simp)
    (dotless_extension other)
  rw [h, hsplit'] at hsplit
  obtain ⟨hfront, hextension⟩ := Prod.mk.inj hsplit
  -- The extension tells the kind, and then only the numbers can differ.
  have hkind : kind = other := by
    rw [String.ofList_toList, String.ofList_toList] at hextension
    cases kind <;> cases other <;> first | rfl | exact absurd hextension (by decide)
  subst hkind
  have hnumber : Text.Numeral.writePadded 3 n = Text.Numeral.writePadded 3 number := by
    simpa [String.ofList_inj] using hfront
  refine ⟨rfl, ?_⟩
  rw [← Text.Numeral.value_writePadded 3 number, ← hnumber, Text.Numeral.value_writePadded]

/-- Names of segments and names of scratch files begin differently. -/
theorem fileName_ne_scratch (kind other : MediaKind) (number n : Nat) :
    names.fileName kind number ≠ "__" ++ names.fileName other n := by
  intro h
  have hhead := congrArg (·.toList.head?) h
  simp [ArtifactNames.toList_fileName] at hhead

theorem name_injective : Function.Injective (name names) := by
  intro file other h
  cases file with
  | segment kind number =>
    cases other with
    | segment other n =>
      obtain ⟨rfl, rfl⟩ := fileName_injective h
      rfl
    | scratch other n => exact absurd h (fileName_ne_scratch kind other number n)
  | scratch kind number =>
    cases other with
    | segment other n => exact absurd h.symm (fileName_ne_scratch other kind n number)
    | scratch other n =>
      obtain ⟨rfl, rfl⟩ := fileName_injective ((String.append_right_inj _).1 h)
      rfl

/-- Before the last dot of its name there is more than the stem. -/
theorem exists_toList_name (names : ArtifactNames) (file : GeneratedFile) :
    ∃ front extension, (file.name names).toList = front ++ '.' :: extension ∧ '.' ∉ extension ∧
      names.stem.toList.length < front.length := by
  have hsegment (kind : MediaKind) (number : Nat) :
      ∃ front, (names.fileName kind number).toList = front ++ '.' :: kind.extension.toList ∧
        names.stem.toList.length < front.length := by
    refine ⟨_, ArtifactNames.toList_fileName names kind number, ?_⟩
    simp only [List.length_append, List.length_cons]
    omega
  cases file with
  | segment kind number =>
    obtain ⟨front, hname, hlength⟩ := hsegment kind number
    exact ⟨front, _, hname, dotless_extension kind, hlength⟩
  | scratch kind number =>
    obtain ⟨front, hname, hlength⟩ := hsegment kind number
    refine ⟨"__".toList ++ front, _, ?_, dotless_extension kind, ?_⟩
    · rw [name, String.toList_append, hname, List.append_assoc]
    · rw [List.length_append]
      omega

/-- The output itself has another name. -/
theorem name_ne_of_fileName? {output : Path} {own : String} (h : output.fileName? = some own)
    (file : GeneratedFile) : file.name (.ofOutput output) ≠ own := by
  intro heq
  have hstem : (ArtifactNames.ofOutput output).stem = (Path.splitAtDot own).1 := by
    rw [ArtifactNames.ofOutput, Path.fileStem?, h]
    rfl
  obtain ⟨front, extension, hname, hdotless, hlength⟩ := exists_toList_name (.ofOutput output) file
  have hfront : front ≠ [] := List.ne_nil_of_length_pos (by omega)
  rw [heq] at hname
  rw [hstem, Path.splitAtDot_eq hname hfront hdotless, String.toList_ofList] at hlength
  exact Nat.lt_irrefl _ hlength

/-- The paths of the files that are made for an output are the same for the same file only, and none
of them is the path of the output. -/
theorem same_path_iff (output : Path) (file other : GeneratedFile) :
    ((file.path (.ofOutput output)).same (other.path (.ofOutput output)) = true ↔ file = other) ∧
      (file.path (.ofOutput output)).same output = false := by
  have hcomponents := components_path (ArtifactNames.undivided_stem_ofOutput output)
  refine ⟨⟨?_, ?_⟩, ?_⟩
  · intro hsame
    rw [Path.same, hcomponents, hcomponents, beq_iff_eq] at hsame
    have hlast := (List.append_inj' hsame rfl).2
    exact name_injective (by simpa using hlast)
  · rintro rfl
    exact beq_self_eq_true _
  · rw [Bool.eq_false_iff]
    intro hsame
    rw [Path.same, hcomponents, beq_iff_eq] at hsame
    have hown : output.fileName? = some (file.name (.ofOutput output)) := by
      simp only [Path.fileName?, ← hsame, List.getLast?_concat]
    exact name_ne_of_fileName? hown file rfl

end GeneratedFile

end EpisodeCut
