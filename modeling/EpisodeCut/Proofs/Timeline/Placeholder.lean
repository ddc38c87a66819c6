import EpisodeCut.Proofs.Artifacts.Names
import EpisodeCut.Proofs.Text.Numeral
import EpisodeCut.Proofs.Text.Span
import EpisodeCut.Proofs.Timeline.Drawn

/-!
# Placeholders

A segment whose image does not exist yet is registered under a placeholder, which ends in a hash
sign and the number of the segment. Names of files contain no hash sign, so no other segment has
the placeholder of a pending one for its input (`pairwise_input_ne`). Generated files have an
extension at the end of their names, so none is called like a placeholder
(`input_ne_path_of_resolve`).
-/

set_option autoImplicit false

namespace EpisodeCut

open Text

/-- Whether the image of a segment has still to be made. -/
def Segment.isPending (segment : Segment) : Bool :=
  segment.pendingSource?.isSome

/-- Only frames have images. -/
theorem Segment.isPending_eq_false {segment : Segment} (h : segment.kind ≠ .frame) :
    segment.isPending = false := by
  obtain ⟨number, punchIn, punchOut, input, body⟩ := segment
  cases body with
  | audio stream => rfl
  | video stream => rfl
  | frame frame state => exact absurd rfl h

theorem Segment.pendingSource?_eq_some_iff {segment : Segment} {source : FrameSource} :
    segment.pendingSource? = some source ↔
      ∃ frame, segment.body = .frame frame (.pending source) := by
  constructor
  · intro h
    simp only [pendingSource?] at h
    split at h
    · next frame other hbody =>
      cases h
      exact ⟨frame, hbody⟩
    · cases h
  · rintro ⟨frame, hbody⟩
    simp only [pendingSource?, hbody]

namespace Timeline

variable {defaults : Defaults}

theorem toList_placeholder (source : String) (number : Nat) :
    (placeholder source number).toList = source.toList ++ '#' :: Numeral.write number := by
  rw [placeholder, String.toList_append, String.toList_append, Numeral.toList_text,
    List.append_assoc]
  rfl

/-- Placeholders of different segments differ. -/
theorem number_eq_of_placeholder_eq {source other : String} {number next : Nat}
    (hsource : '#' ∉ source.toList) (hother : '#' ∉ other.toList)
    (h : placeholder source number = placeholder other next) : number = next := by
  -- Neither source contains a hash sign, so the number is what stands behind the first one.
  have htext := congrArg (fun name => (name.toList.dropWhile (· != '#')).drop 1) h
  simp only [toList_placeholder, dropWhile_ne_append_cons hsource,
    dropWhile_ne_append_cons hother, List.drop_succ_cons, List.drop_zero] at htext
  exact Numeral.write_injective htext

/-- A placeholder ends in a digit and the name of a generated file in a letter. -/
theorem placeholder_ne_path (source : String) (number : Nat) (names : ArtifactNames)
    (kind : MediaKind) (other : Nat) : placeholder source number ≠ names.path kind other := by
  intro heq
  obtain ⟨front, hpath⟩ := names.toList_path kind other
  obtain ⟨digits, last, hwrite⟩ :=
    (List.eq_nil_or_concat (Numeral.write number)).resolve_left (Numeral.write_ne_nil number)
  have hmem : last ∈ Numeral.write number := by
    simp [hwrite]
  have hdigit := Numeral.isDigit_of_mem_write hmem
  have hends : some last = ('.' :: kind.extension.toList).getLast? := by
    have htext : source.toList ++ '#' :: digits ++ [last] = front ++ '.' :: kind.extension.toList := by
      rw [← hpath, ← heq, toList_placeholder, hwrite, List.concat_eq_append, List.append_assoc]
      rfl
    have hlast := congrArg List.getLast? htext
    rw [List.getLast?_concat, List.getLast?_append_of_ne_nil _ (List.cons_ne_nil _ _)] at hlast
    exact hlast
  cases kind <;> cases hends <;> exact absurd hdigit (by decide)

/-- The input of a segment is a file, or a placeholder if its image has still to be made. -/
structure Marked (segment : Segment) : Prop where
  pending : segment.isPending = true →
    ∃ name : String, '#' ∉ name.toList ∧ segment.input = placeholder name segment.number
  ready : segment.isPending = false → '#' ∉ segment.input.toList

theorem Marked.input_ne {segment other : Segment} (hsegment : Marked segment)
    (hother : Marked other) (numbers : segment.number ≠ other.number)
    (pending : segment.isPending = true ∨ other.isPending = true) :
    segment.input ≠ other.input := by
  have hmark : ∀ (name : String) (number : Nat), '#' ∈ (placeholder name number).toList := by
    intro name number
    rw [toList_placeholder]
    simp
  intro heq
  cases hfirst : segment.isPending with
  | true =>
    obtain ⟨name, hname, hinput⟩ := hsegment.pending hfirst
    cases hsecond : other.isPending with
    | true =>
      obtain ⟨next, hnext, hnextInput⟩ := hother.pending hsecond
      rw [hinput, hnextInput] at heq
      exact numbers (number_eq_of_placeholder_eq hname hnext heq)
    | false =>
      -- A placeholder contains a hash sign, the file of the other segment does not.
      apply hother.ready hsecond
      rw [← heq, hinput]
      exact hmark name segment.number
  | false =>
    have hsecond : other.isPending = true := by simpa [hfirst] using pending
    obtain ⟨next, -, hnextInput⟩ := hother.pending hsecond
    apply hsegment.ready hfirst
    rw [heq, hnextInput]
    exact hmark next other.number

/-! ## Drawn segments -/

theorem eq_of_streamOf_map {number : Nat} {kind : MediaKind} {index : FrameNumber}
    {file input : String} {body : SegmentBody} {make : UInt32 → SegmentBody}
    (h : (streamOf number kind index).map (fun stream => (file, make stream)) = .ok (input, body)) :
    ∃ stream, input = file ∧ body = make stream := by
  cases index with
  | index n =>
    cases h
    exact ⟨n, rfl, rfl⟩
  | last => cases h

/-- A segment is fed by an image that has still to be made, or by a file. -/
theorem FedBy.pending_or_file {feed : Feed} {segment : Segment} (h : FedBy feed segment) :
    (segment.isPending = true ∧ feed.kind = .frame ∧ ∃ name,
      segment.input = placeholder name segment.number ∧
        (feed.source = .previousSegment ∧ name = "^" ∨
          feed.source = .file name ∧ FrameSource.isDocument name = true)) ∨
    (segment.isPending = false ∧ feed.source = .file segment.input ∧
      ¬(feed.kind = .frame ∧ FrameSource.isDocument segment.input = true)) := by
  obtain ⟨kind, source, index, duration⟩ := feed
  obtain ⟨number, punchIn, punchOut, input, body⟩ := segment
  cases source with
  | previousSegment =>
    cases kind with
    | audio => cases h
    | video => cases h
    | frame =>
      simp only [FedBy, content, Except.ok.injEq, Prod.mk.injEq] at h
      obtain ⟨rfl, rfl⟩ := h
      exact Or.inl ⟨rfl, rfl, "^", rfl, Or.inl ⟨rfl, rfl⟩⟩
  | file file =>
    cases kind with
    | audio =>
      obtain ⟨stream, hinput, hbody⟩ := eq_of_streamOf_map h
      cases hinput
      cases hbody
      exact Or.inr ⟨rfl, rfl, fun hframe => by cases hframe.1⟩
    | video =>
      obtain ⟨stream, hinput, hbody⟩ := eq_of_streamOf_map h
      cases hinput
      cases hbody
      exact Or.inr ⟨rfl, rfl, fun hframe => by cases hframe.1⟩
    | frame =>
      simp only [FedBy, content, FrameSource.ofFile?] at h
      by_cases hdocument : FrameSource.isDocument file = true
      · rw [if_pos hdocument, Except.ok.injEq, Prod.mk.injEq] at h
        obtain ⟨rfl, rfl⟩ := h
        exact Or.inl ⟨rfl, rfl, file, rfl, Or.inr ⟨rfl, hdocument⟩⟩
      · rw [if_neg hdocument, Except.ok.injEq, Prod.mk.injEq] at h
        obtain ⟨rfl, rfl⟩ := h
        exact Or.inr ⟨rfl, rfl, fun hframe => hdocument hframe.2⟩

/-- Only documents are rasterized. -/
theorem DrawnFromSome.isDocument {specs : List InputSpec} {segment : Segment}
    (drawn : DrawnFromSome defaults specs segment) {file : String} {page : FrameNumber}
    (h : segment.pendingSource? = some (.document file page)) :
    FrameSource.isDocument file = true := by
  obtain ⟨spec, -, ⟨kind, source, index, duration⟩, -, -, hfed⟩ := drawn
  obtain ⟨number, punchIn, punchOut, input, body⟩ := segment
  obtain ⟨frame, rfl⟩ := Segment.pendingSource?_eq_some_iff.1 h
  cases source with
  | previousSegment => cases kind <;> simp [content] at hfed
  | file name =>
    cases kind with
    | audio =>
      obtain ⟨stream, -, hbody⟩ := eq_of_streamOf_map hfed
      cases hbody
    | video =>
      obtain ⟨stream, -, hbody⟩ := eq_of_streamOf_map hfed
      cases hbody
    | frame =>
      by_cases hname : FrameSource.isDocument name = true
      · simp only [content, FrameSource.ofFile?, if_pos hname, Except.ok.injEq, Prod.mk.injEq,
          SegmentBody.frame.injEq, FrameState.pending.injEq, FrameSource.document.injEq] at hfed
        rw [← hfed.2.2.1]
        exact hname
      · simp [content, FrameSource.ofFile?, hname] at hfed

/-- The input of a pending segment is called like no generated file. -/
theorem input_ne_path_of_resolve {σ : Type} {probe : Probe σ} {specs : List InputSpec}
    {run drafted : Run σ} {timeline : Timeline}
    (h : resolve defaults probe specs run = .ok timeline drafted) (names : ArtifactNames)
    (kind : MediaKind) : ∀ segment ∈ timeline.segments, segment.isPending = true →
      ∀ number, segment.input ≠ names.path kind number := by
  intro segment hsegment hpending number
  obtain ⟨spec, -, feed, -, -, hfed⟩ := (resolve_eq_ok h).1.holds segment hsegment
  rcases FedBy.pending_or_file hfed with ⟨-, -, name, hinput, -⟩ | ⟨hready, -⟩
  · rw [hinput]
    exact placeholder_ne_path name segment.number names kind number
  · rw [hpending] at hready
    cases hready

/-- The files that specifications use have names without hash signs. -/
def Unmarked (defaults : Defaults) (specs : List InputSpec) : Prop :=
  ∀ spec ∈ specs, ∀ file, sourceOf? defaults spec = some (.file file) → '#' ∉ file.toList

theorem DrawnFrom.marked {spec : InputSpec} {segment : Segment}
    (drawn : DrawnFrom defaults spec segment)
    (unmarked : ∀ file, sourceOf? defaults spec = some (.file file) → '#' ∉ file.toList) :
    Marked segment := by
  obtain ⟨feed, -, hsource, hfed⟩ := drawn
  rcases FedBy.pending_or_file hfed with ⟨hpending, -, name, hinput, hname⟩ | ⟨hready, hfile, -⟩
  · have hplain : '#' ∉ name.toList := by
      rcases hname with ⟨-, rfl⟩ | ⟨hfile, -⟩
      · decide
      · exact unmarked name (hsource.trans (congrArg some hfile))
    refine ⟨fun _ => ⟨name, hplain, hinput⟩, fun hready => ?_⟩
    rw [hpending] at hready
    cases hready
  · refine ⟨fun hpending => ?_, fun _ => unmarked _ (hsource.trans (congrArg some hfile))⟩
    rw [hready] at hpending
    cases hpending

theorem DrawnInTurn.exists_spec {specs : List InputSpec} {segments : List Segment}
    (drawn : DrawnInTurn defaults specs segments) {segment : Segment} (h : segment ∈ segments) :
    ∃ spec ∈ specs, DrawnFrom defaults spec segment := by
  obtain ⟨parts, rfl, hparts⟩ := drawn
  obtain ⟨part, hpart, hsegment⟩ := List.mem_flatten.1 h
  induction hparts with
  | nil => cases hpart
  | cons hdrawn _ ih =>
    rcases List.mem_cons.1 hpart with rfl | hpart
    · exact ⟨_, List.mem_cons_self, hdrawn segment hsegment⟩
    · obtain ⟨spec, hspec, hfrom⟩ := ih (List.mem_flatten.2 ⟨part, hpart, hsegment⟩) hpart
      exact ⟨spec, List.mem_cons_of_mem _ hspec, hfrom⟩

/-- The input of a pending segment is the input of no other segment. -/
theorem pairwise_input_ne {specs : List InputSpec} {segments : List Segment}
    (drawn : DrawnInTurn defaults specs segments)
    (numbers : (segments.map Segment.number).Nodup) (unmarked : Unmarked defaults specs) :
    segments.Pairwise fun segment other =>
      segment.isPending = true ∨ other.isPending = true → segment.input ≠ other.input := by
  have hmarked : ∀ segment ∈ segments, Marked segment := by
    intro segment hsegment
    obtain ⟨spec, hspec, hdrawn⟩ := drawn.exists_spec hsegment
    exact hdrawn.marked (unmarked spec hspec)
  refine (List.pairwise_map.1 numbers).imp_of_mem fun {segment other} hsegment hother hne => ?_
  exact (hmarked segment hsegment).input_ne (hmarked other hother) hne

end Timeline

end EpisodeCut
