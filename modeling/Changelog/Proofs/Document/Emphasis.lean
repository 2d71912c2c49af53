import Changelog.Proofs.Document.Readers

/-!
# Emphasis is sound

Whatever runs of marks are opened, closed and given up, the elements that are made are sound, and so
is the shelf after they are put on it.  A text is parted at asterisks and low lines, which are in no
mark.
-/

namespace Changelog

open Element Text

variable {g : Grade}

/-! ### Segments -/

/-- Whether the characters of a segment are of the grade; those of a run are marks of emphasis. -/
def Segment.Sound (g : Grade) : Segment → Prop
  | .plain cs => g.running cs
  | .run r => r.mark ≠ Mark.opening

namespace Segment

theorem isMark_cases {c : Char} (h : Run.isMark c = true) : c = '*' ∨ c = '_' := by
  rw [Run.isMark, Bool.or_eq_true] at h
  exact h.imp eq_of_beq eq_of_beq

theorem sound_ofTextWithin (fuel : Nat) (before : Option Char) {cs : Text} (h : g.running cs) :
    ∀ s ∈ ofTextWithin fuel before cs, s.Sound g := by
  induction fuel generalizing before cs with
  | zero => exact List.forall_mem_nil _
  | succ fuel ih =>
    cases cs with
    | nil => exact List.forall_mem_nil _
    | cons c cs =>
      have hrest (p : Char → Bool) : g.running (spanWhile p cs).2 :=
        g.suffix h ((spanWhile_suffix p cs).trans (List.suffix_cons c cs))
      unfold ofTextWithin
      split
      · next hc =>
        refine List.forall_mem_cons.mpr ⟨?_, ih _ (hrest _)⟩
        show c ≠ Mark.opening
        rcases isMark_cases hc with rfl | rfl <;> decide
      · refine List.forall_mem_cons.mpr ⟨?_, ih _ (hrest _)⟩
        obtain ⟨hcs, -, hhead⟩ := spanWhile_spec
          (rfl : spanWhile (fun d => !Run.isMark d) cs = (_, _))
        show g.running (c :: (spanWhile (fun d => !Run.isMark d) cs).1)
        rw [hcs, ← List.cons_append] at h
        refine g.cut h fun d hd => ?_
        have hmark := hhead d hd
        rw [Bool.not_eq_false'] at hmark
        rcases isMark_cases hmark with rfl | rfl <;> decide

theorem sound_dropFirst {segments : List Segment} (h : ∀ s ∈ segments, s.Sound g) :
    ∀ s ∈ dropFirst segments, s.Sound g := by
  cases segments with
  | nil => exact List.forall_mem_nil _
  | cons s segments =>
    obtain ⟨hs, hothers⟩ := List.forall_mem_cons.mp h
    cases s with
    | plain cs =>
      have hcs : g.running cs := hs
      exact List.forall_mem_cons.mpr ⟨g.suffix hcs (List.tail_suffix cs), hothers⟩
    | run r => exact List.forall_mem_cons.mpr ⟨hs, hothers⟩

end Segment

/-! ### Parts -/

/-- Whether a part is of the grade, or a sound element. -/
def Part.Sound (g : Grade) : Part → Prop
  | .plain cs => g.running cs
  | .element d => Element.Sound g d

namespace Part

theorem sound_gather {parts : List Part} (h : ∀ p ∈ parts, p.Sound g) :
    g.running (gather parts).1 ∧ ∀ d ∈ (gather parts).2, Element.Sound g d := by
  induction parts with
  | nil => exact ⟨Grade.empty, List.forall_mem_nil _⟩
  | cons part rest ih =>
    obtain ⟨hpart, hothers⟩ := List.forall_mem_cons.mp h
    obtain ⟨htext, helements⟩ := ih hothers
    cases part with
    | plain cs => exact ⟨g.append hpart htext, helements⟩
    | element d =>
      refine ⟨Grade.empty, List.forall_mem_cons.mpr ⟨Element.Sound.withTail hpart ?_, helements⟩⟩
      split
      · exact Grade.empty
      · exact htext

theorem sound_wrap {tag : String} (ht : tag ∈ documentTags) {parts : List Part}
    (h : ∀ p ∈ parts, p.Sound g) : Element.Sound g (wrap tag parts) := by
  obtain ⟨htext, helements⟩ := sound_gather h
  refine ⟨fits_nil ht, ?_, Grade.empty, helements⟩
  show g.running (Draft.charsOf (if _ then _ else _))
  split
  · exact Grade.empty
  · exact htext

end Part

/-- Whether the mark of an open run begins no mark in texts, and what was read since is sound. -/
structure Opening.Sound (g : Grade) (o : Opening) : Prop where
  mark : o.mark ≠ Mark.opening
  parts : ∀ p ∈ o.parts, p.Sound g

namespace Emphasis

/-- All parts read so far are sound. -/
structure Sound (g : Grade) (e : Emphasis) : Prop where
  parts : ∀ p ∈ e.parts, p.Sound g
  openings : ∀ o ∈ e.openings, o.Sound g

theorem running_replicate {c : Char} (h : c ≠ Mark.opening) (n : Nat) :
    g.running (List.replicate n c) :=
  g.free fun hm => h (List.eq_of_mem_replicate hm).symm

namespace Sound

variable {e : Emphasis}

theorem add (h : e.Sound g) {parts : List Part} (hp : ∀ p ∈ parts, p.Sound g) :
    (e.add parts).Sound g := by
  unfold Emphasis.add
  split
  · exact ⟨List.forall_mem_append.mpr ⟨h.parts, hp⟩, h.openings⟩
  · next o others ho =>
    have hall : ∀ o' ∈ o :: others, o'.Sound g := ho ▸ h.openings
    obtain ⟨hfirst, hothers⟩ := List.forall_mem_cons.mp hall
    refine ⟨h.parts, List.forall_mem_cons.mpr ⟨⟨hfirst.mark, ?_⟩, hothers⟩⟩
    exact List.forall_mem_append.mpr ⟨hfirst.parts, hp⟩

theorem giveUp (h : e.Sound g) : e.giveUp.Sound g := by
  unfold Emphasis.giveUp
  split
  · exact h
  · next o others ho =>
    have hall : ∀ o' ∈ o :: others, o'.Sound g := ho ▸ h.openings
    obtain ⟨hfirst, hothers⟩ := List.forall_mem_cons.mp hall
    have hleft : ({ e with openings := others } : Emphasis).Sound g := ⟨h.parts, hothers⟩
    exact hleft.add (List.forall_mem_cons.mpr
      ⟨running_replicate hfirst.mark o.count, hfirst.parts⟩)

theorem giveUpAll (h : e.Sound g) (depth : Nat) : (e.giveUpAll depth).Sound g := by
  induction depth generalizing e with
  | zero => exact h
  | succ depth ih => exact ih h.giveUp

theorem close (h : e.Sound g) (c : Closing) : (e.close c).Sound g := by
  have hinner := h.giveUpAll c.depth
  unfold Emphasis.close
  generalize e.giveUpAll c.depth = inner at hinner
  dsimp only
  split
  · exact hinner
  · next o others ho =>
    have hall : ∀ o' ∈ o :: others, o'.Sound g := ho ▸ hinner.openings
    obtain ⟨hfirst, hothers⟩ := List.forall_mem_cons.mp hall
    have htag : (if c.marks = 1 then "em" else "strong") ∈ documentTags := by
      split <;> decide
    have hwrap : ∀ p ∈ [Part.element (Part.wrap (if c.marks = 1 then "em" else "strong") o.parts)],
        p.Sound g :=
      List.forall_mem_singleton.mpr (Part.sound_wrap htag hfirst.parts)
    split
    · have hleft : ({ inner with openings := others } : Emphasis).Sound g :=
        ⟨hinner.parts, hothers⟩
      exact hleft.add hwrap
    · exact ⟨hinner.parts, List.forall_mem_cons.mpr ⟨⟨hfirst.mark, hwrap⟩, hothers⟩⟩

theorem closeWithin (h : e.Sound g) (r : Run) (last : Bool) (fuel count : Nat) :
    (Emphasis.closeWithin r last fuel count e).1.Sound g := by
  induction fuel generalizing count e with
  | zero => exact h
  | succ fuel ih =>
    unfold Emphasis.closeWithin
    split
    · exact h
    · split
      · exact h
      · exact ih (h.close _) _

theorem readRun (h : e.Sound g) {r : Run} (hr : r.mark ≠ Mark.opening) (last : Bool) :
    (e.readRun r last).1.Sound g := by
  have hclosed : (if r.closes then Emphasis.closeWithin r last r.count r.count e
      else (e, r.count, 0)).1.Sound g := by
    split
    · exact h.closeWithin r last _ _
    · exact h
  unfold Emphasis.readRun
  generalize (if r.closes then Emphasis.closeWithin r last r.count r.count e
    else (e, r.count, 0)) = closed at hclosed
  dsimp only
  split
  · exact hclosed
  · split
    · exact ⟨hclosed.parts, List.forall_mem_cons.mpr
        ⟨⟨hr, List.forall_mem_nil _⟩, hclosed.openings⟩⟩
    · exact hclosed.add (List.forall_mem_singleton.mpr (running_replicate hr _))

theorem readWithin (fuel : Nat) (h : e.Sound g) {segments : List Segment}
    (hs : ∀ s ∈ segments, s.Sound g) : (Emphasis.readWithin fuel e segments).Sound g := by
  induction fuel generalizing e segments with
  | zero => exact h
  | succ fuel ih =>
    cases segments with
    | nil => exact h
    | cons segment rest =>
      obtain ⟨hfirst, hrest⟩ := List.forall_mem_cons.mp hs
      cases segment with
      | plain cs =>
        have hpart : Part.Sound g (.plain cs) := hfirst
        exact ih (h.add (List.forall_mem_singleton.mpr hpart)) hrest
      | run r =>
        refine ih (h.readRun hfirst _) ?_
        split
        · exact hrest
        · exact Segment.sound_dropFirst hrest

end Sound

theorem sound_partsOf {cs : Text} (h : g.running cs) : ∀ p ∈ partsOf cs, p.Sound g := by
  have hempty : (⟨[], []⟩ : Emphasis).Sound g :=
    ⟨List.forall_mem_nil _, List.forall_mem_nil _⟩
  have hsegments := Segment.sound_ofTextWithin cs.length none h
  exact ((hempty.readWithin _ hsegments).giveUpAll _).parts

theorem sound_shelve {parts : List Part} (hp : ∀ p ∈ parts, p.Sound g) {shelf : Shelf}
    (h : shelf.Sound g) :
    g.running (shelve parts shelf).1 ∧ (shelve parts shelf).2.Sound g := by
  induction parts generalizing shelf with
  | nil => exact ⟨Grade.empty, h⟩
  | cons part rest ih =>
    obtain ⟨hpart, hrest⟩ := List.forall_mem_cons.mp hp
    cases part with
    | plain cs =>
      obtain ⟨htext, hshelf⟩ := ih hrest h
      exact ⟨g.append hpart htext, hshelf⟩
    | element d =>
      obtain ⟨htext, hshelf⟩ := ih hrest (h.put (.element d) hpart)
      exact ⟨g.append (Grade.spanMark _) htext, hshelf⟩

theorem sound_read {cs : Text} (hc : g.running cs) {shelf : Shelf} (h : shelf.Sound g) :
    g.running (read cs shelf).1 ∧ (read cs shelf).2.Sound g :=
  sound_shelve (sound_partsOf hc) h

end Emphasis

end Changelog
