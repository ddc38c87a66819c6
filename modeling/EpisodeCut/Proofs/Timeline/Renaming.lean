import EpisodeCut.Proofs.Run.Lockstep
import EpisodeCut.Proofs.Timeline.Placeholder
import Mathlib.Logic.Relator

/-!
# Renaming the files of the user

What it means to give other names to the files of the user (`Renaming`), in specifications and in
defaults, and to the probe that is asked about the files (`Probe.Renamed`). A renaming keeps files
apart and documents documents.

A name in the registry of a run stands for a file of the user, for an image that is still to be
made, or for one that was made (`InputName`). Which of them it stands for can be told from the name
(`InputName.text_injective`), so the names before and after a renaming correspond one-to-one
(`Renaming.biUnique`).
-/

set_option autoImplicit false

namespace EpisodeCut

open Relator

/-! ## Files of the user -/

/-- The name of a file of the user, which has no hash sign and is not that of an image. -/
structure ArtifactNames.Spares (names : ArtifactNames) (file : String) : Prop where
  unmarked : '#' ∉ file.toList
  image : ∀ number, file ≠ names.path .frame number

/-- A way to give other names to `files`. Different files stay different, documents stay documents
and other files other files, and both names are such as files of the user have. -/
structure Renaming (names : ArtifactNames) (files : List String) (rename : String → String) :
    Prop where
  injective : ∀ file ∈ files, ∀ other ∈ files, rename file = rename other → file = other
  document : ∀ file ∈ files,
    FrameSource.isDocument (rename file) = FrameSource.isDocument file
  before : ∀ file ∈ files, names.Spares file
  after : ∀ file ∈ files, names.Spares (rename file)

/-- What one probe says about files, the other one says about the same files under their new names,
as long as their worlds are related. -/
structure Probe.Renamed {σ τ : Type} (files : List String) (rename : String → String)
    (World : σ → τ → Prop) (probe : Probe σ) (other : Probe τ) : Prop where
  present : ∀ file ∈ files, ∀ world otherWorld, World world otherWorld →
    other.present (rename file) otherWorld = probe.present file world
  duration : ∀ file ∈ files,
    Action.Lockstep World Eq (probe.duration file) (other.duration (rename file))

namespace SourceRef

/-- The source under its new name. -/
def rename (rename : String → String) : SourceRef → SourceRef
  | .file name => .file (rename name)
  | .previousSegment => .previousSegment

/-- The files that a source names. -/
def files : SourceRef → List String
  | .file name => [name]
  | .previousSegment => []

/-- What stands for the source in placeholders. -/
def mark : SourceRef → String
  | .file name => name
  | .previousSegment => "^"

end SourceRef

/-- The time with the file under its new name. -/
def TimeToken.rename (rename : String → String) : TimeToken → TimeToken
  | .timestamp clock => .timestamp clock
  | .durationOf file => .durationOf (rename file)

/-- The specification with all files under their new names. -/
def InputSpec.rename (rename : String → String) (spec : InputSpec) : InputSpec :=
  { spec with
    source := spec.source.map (SourceRef.rename rename)
    times := spec.times.map (TimeToken.rename rename) }

/-- The default with its file under its new name. -/
def StreamDefault.rename (rename : String → String) (default : StreamDefault) : StreamDefault :=
  { default with file := default.file.map rename }

namespace Defaults

/-- The defaults with all files under their new names. -/
def rename (rename : String → String) (defaults : Defaults) : Defaults where
  audio := defaults.audio.rename rename
  video := defaults.video.rename rename
  frame := defaults.frame.rename rename

theorem get_rename (rename : String → String) (defaults : Defaults) (kind : MediaKind) :
    (defaults.rename rename).get kind = (defaults.get kind).rename rename := by
  cases kind <;> rfl

/-- The default files. -/
def files (defaults : Defaults) : List String :=
  MediaKind.all.filterMap fun kind => (defaults.get kind).file

theorem mem_files_of_get {defaults : Defaults} {kind : MediaKind} {file : String}
    (h : (defaults.get kind).file = some file) : file ∈ defaults.files := by
  apply List.mem_filterMap.2
  refine ⟨kind, ?_, h⟩
  cases kind <;> decide

end Defaults

/-- The files that specifications name, and the default files. -/
def userFiles (defaults : Defaults) (specs : List InputSpec) : List String :=
  defaults.files ++ specs.flatMap InputSpec.files

/-! ## Names in the registry -/

namespace Timeline

/-- Placeholders that are the same stand for the same source and the same segment. -/
theorem placeholder_injective {source other : String} {number next : Nat}
    (hsource : '#' ∉ source.toList) (hother : '#' ∉ other.toList)
    (h : placeholder source number = placeholder other next) : source = other ∧ number = next := by
  have hnumber := number_eq_of_placeholder_eq hsource hother h
  subst hnumber
  refine ⟨?_, rfl⟩
  have htext := congrArg String.toList h
  rw [toList_placeholder, toList_placeholder] at htext
  exact String.toList_injective (List.append_cancel_right htext)

end Timeline

/-- What a name in the registry stands for. -/
inductive InputName where
  /-- A file of the user. -/
  | file (name : String)
  /-- An image that is still to be made for segment `number`. -/
  | awaited (source : SourceRef) (number : Nat)
  /-- An image that was made. -/
  | image (path : Path)

namespace InputName

/-- The name itself. -/
def text : InputName → String
  | .file name => name
  | .awaited source number => Timeline.placeholder source.mark number
  | .image path => path

/-- The name after the files of the user got new names. -/
def rename (rename : String → String) : InputName → InputName
  | .file name => .file (rename name)
  | .awaited source number => .awaited (source.rename rename) number
  | .image path => .image path

/-- The files of the user behind a name have a property, only documents and previous segments are
waited for, and images have generated names. -/
def Proper (names : ArtifactNames) (P : String → Prop) : InputName → Prop
  | .file name => P name
  | .awaited source _ => ∀ file ∈ source.files, P file ∧ FrameSource.isDocument file = true
  | .image path => ∃ number, path = names.path .frame number

variable {names : ArtifactNames}

theorem unmarked_of_proper {source : SourceRef} {number : Nat}
    (proper : (awaited source number).Proper names names.Spares) : '#' ∉ source.mark.toList := by
  cases source with
  | file name => exact (proper name List.mem_cons_self).1.unmarked
  | previousSegment => decide

/-- Sources that are waited for can be told from their marks: no document is called like the mark of
a previous segment. -/
theorem source_eq_of_mark_eq {P : String → Prop} {source other : SourceRef} {number next : Nat}
    (proper : (awaited source number).Proper names P)
    (otherProper : (awaited other next).Proper names P) (h : source.mark = other.mark) :
    source = other := by
  have hcaret : FrameSource.isDocument "^" ≠ true := by decide +kernel
  cases source with
  | file name =>
    cases other with
    | file otherName => exact congrArg SourceRef.file h
    | previousSegment =>
      have hname : name = "^" := h
      have hdocument := (proper name List.mem_cons_self).2
      rw [hname] at hdocument
      exact absurd hdocument hcaret
  | previousSegment =>
    cases other with
    | file otherName =>
      have hname : "^" = otherName := h
      have hdocument := (otherProper otherName List.mem_cons_self).2
      rw [← hname] at hdocument
      exact absurd hdocument hcaret
    | previousSegment => rfl

theorem ne_placeholder_of_spares {name : String} (spares : names.Spares name) (source : String)
    (number : Nat) : name ≠ Timeline.placeholder source number := by
  intro heq
  apply spares.unmarked
  rw [heq, Timeline.toList_placeholder]
  simp

/-- What a name stands for can be told from the name. -/
theorem text_injective {name other : InputName} (proper : name.Proper names names.Spares)
    (otherProper : other.Proper names names.Spares) (h : name.text = other.text) :
    name = other := by
  -- Neither the files of the user nor placeholders are called like images.
  have hfile : ∀ {name : String} {path : Path}, names.Spares name →
      (∃ number, path = names.path .frame number) → name ≠ path := by
    rintro name path spares ⟨number, rfl⟩
    exact spares.image number
  have himage : ∀ {source : SourceRef} {number : Nat} {path : Path},
      (∃ number, path = names.path .frame number) →
        Timeline.placeholder source.mark number ≠ path := by
    rintro source number path ⟨other, rfl⟩
    exact Timeline.placeholder_ne_path _ _ _ _ _
  cases name with
  | file name =>
    cases other with
    | file otherName => exact congrArg InputName.file h
    | awaited source number => exact absurd h (ne_placeholder_of_spares proper _ _)
    | image path => exact absurd h (hfile proper otherProper)
  | awaited source number =>
    cases other with
    | file otherName => exact absurd h.symm (ne_placeholder_of_spares otherProper _ _)
    | awaited otherSource next =>
      obtain ⟨hmark, hnumber⟩ := Timeline.placeholder_injective (unmarked_of_proper proper)
        (unmarked_of_proper otherProper) h
      rw [source_eq_of_mark_eq proper otherProper hmark, hnumber]
    | image path => exact absurd h (himage otherProper)
  | image path =>
    cases other with
    | file otherName => exact absurd h.symm (hfile otherProper proper)
    | awaited source number => exact absurd h.symm (himage proper)
    | image otherPath => exact congrArg InputName.image h

end InputName

/-! ## Names before and after a renaming -/

namespace Renaming

variable {names : ArtifactNames} {files : List String} {rename : String → String}

/-- The name `after` stands for the same as `before`, but the files of the user have new names. -/
def Turns (names : ArtifactNames) (files : List String) (rename : String → String)
    (before after : String) : Prop :=
  ∃ name : InputName, name.Proper names (· ∈ files) ∧ before = name.text ∧
    after = (name.rename rename).text

theorem turns_file {file : String} (h : file ∈ files) :
    Turns names files rename file (rename file) :=
  ⟨.file file, h, rfl, rfl⟩

theorem turns_page {file : String} (h : file ∈ files)
    (document : FrameSource.isDocument file = true) (number : Nat) :
    Turns names files rename (Timeline.placeholder file number)
      (Timeline.placeholder (rename file) number) := by
  refine ⟨.awaited (.file file) number, ?_, rfl, rfl⟩
  intro other hother
  rw [List.mem_singleton.1 hother]
  exact ⟨h, document⟩

theorem turns_still (number : Nat) :
    Turns names files rename (Timeline.placeholder "^" number)
      (Timeline.placeholder "^" number) := by
  refine ⟨.awaited .previousSegment number, ?_, rfl, rfl⟩
  intro other hother
  cases hother

theorem turns_image (number : Nat) :
    Turns names files rename (names.path .frame number) (names.path .frame number) :=
  ⟨.image _, ⟨number, rfl⟩, rfl, rfl⟩

variable (renames : Renaming names files rename)
include renames

theorem proper_before {name : InputName} (proper : name.Proper names (· ∈ files)) :
    name.Proper names names.Spares := by
  cases name with
  | file name => exact renames.before name proper
  | awaited source number =>
    intro file hfile
    obtain ⟨hmem, hdocument⟩ := proper file hfile
    exact ⟨renames.before file hmem, hdocument⟩
  | image path => exact proper

theorem proper_after {name : InputName} (proper : name.Proper names (· ∈ files)) :
    (name.rename rename).Proper names names.Spares := by
  cases name with
  | file name => exact renames.after name proper
  | awaited source number =>
    cases source with
    | file name =>
      -- What is waited for was a document and still is.
      obtain ⟨hmem, hdocument⟩ := proper name List.mem_cons_self
      intro file hfile
      rw [List.mem_singleton.1 hfile]
      exact ⟨renames.after name hmem, (renames.document name hmem).trans hdocument⟩
    | previousSegment =>
      intro file hfile
      cases hfile
  | image path => exact proper

/-- Names stand for different things after a renaming if they did before. -/
theorem rename_injective {name other : InputName} (proper : name.Proper names (· ∈ files))
    (otherProper : other.Proper names (· ∈ files)) (h : name.rename rename = other.rename rename) :
    name = other := by
  -- A renaming makes no placeholder of a file and no file of an image.
  cases name with
  | file name =>
    cases other with
    | file otherName =>
      rw [renames.injective name proper otherName otherProper (InputName.file.inj h)]
    | awaited source number => cases h
    | image path => cases h
  | awaited source number =>
    cases other with
    | file otherName => cases h
    | awaited otherSource next =>
      obtain ⟨hsource, hnumber⟩ := InputName.awaited.inj h
      rw [hnumber]
      cases source with
      | file name =>
        cases otherSource with
        | file otherName =>
          rw [renames.injective name (proper name List.mem_cons_self).1 otherName
            (otherProper otherName List.mem_cons_self).1 (SourceRef.file.inj hsource)]
        | previousSegment => cases hsource
      | previousSegment =>
        cases otherSource with
        | file otherName => cases hsource
        | previousSegment => rfl
    | image path => cases h
  | image path =>
    cases other with
    | file otherName => cases h
    | awaited source number => cases h
    | image otherPath => exact h

/-- The names before and after a renaming correspond one-to-one. -/
theorem biUnique : BiUnique (Turns names files rename) := by
  -- In both directions it can be told from the one name what it stands for, and so what the other
  -- one is.
  constructor
  · rintro before other after ⟨name, hname, rfl, rfl⟩ ⟨otherName, hother, rfl, htext⟩
    have hrenamed := InputName.text_injective (renames.proper_after hname)
      (renames.proper_after hother) htext
    rw [renames.rename_injective hname hother hrenamed]
  · rintro before after other ⟨name, hname, rfl, rfl⟩ ⟨otherName, hother, htext, rfl⟩
    rw [InputName.text_injective (renames.proper_before hname) (renames.proper_before hother)
      htext]

end Renaming

end EpisodeCut
