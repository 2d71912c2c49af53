import Changelog.Markdown.Blocks
import Changelog.Markdown.Span.Address
import Changelog.Proofs.Marks.Changes

/-!
# Grades of texts

What holds of the texts of a document when it is read is kept by a few operations on texts: they are
put together, cut outside marks, and written as markup.  A grade is what is asked of running text, of
the values of attributes and of stored markup, closed under these operations.
-/

namespace Changelog

open Text

/-- What is asked of the texts of a document, whose marks of stored markup are numbered from `least`
on. -/
structure Grade where
  least : Nat
  running : Text → Prop
  value : Text → Prop
  markup : Text → Prop
  free : ∀ {cs}, Mark.opening ∉ cs → running cs
  word : ∀ {c}, c = 'k' ∨ c = 'a' → running [Mark.opening, c]
  raw : ∀ {n}, least ≤ n → running (Mark.raw n)
  escaped : ∀ {c}, c ≠ Mark.opening → running (Mark.escaped c.toNat)
  append : ∀ {cs ds}, running cs → running ds → running (cs ++ ds)
  suffix : ∀ {cs ds}, running cs → ds <:+ cs → running ds
  cut : ∀ {cs rest}, running (cs ++ rest) → (∀ c ∈ rest.head?, Mark.isInner c = false) → running cs
  text : ∀ {cs}, running cs → running (Escape.text cs)
  code : ∀ {cs}, running cs → running (Escape.code cs)
  settled : ∀ {cs shown}, running cs → Mark.unescape cs = .ok shown → running shown
  running_marks : ∀ {shelf : Shelf} {image}, (∀ s ∈ shelf.spans.toList, running (image s)) →
    ∀ {cs}, running cs → running (shelf.replaceMarks image cs)
  value_of_running : ∀ {cs}, running cs → value cs
  part : ∀ {cs ds}, value cs → ds <:+: cs → value ds
  spaces : ∀ {cs}, value cs → value (cs.map fun c => if isSpace c then ' ' else c)
  value_settled : ∀ {cs shown}, value cs → Mark.unescape cs = .ok shown → value shown
  value_marks : ∀ {shelf : Shelf} {image}, (∀ s ∈ shelf.spans.toList, running (image s)) →
    ∀ {cs}, value cs → value (shelf.replaceMarks image cs)
  markup_of_running : ∀ {cs}, running cs → markup cs
  markup_append : ∀ {cs ds}, markup cs → markup ds → markup (cs ++ ds)
  quoted : ∀ {cs}, value cs → markup (Escape.value cs ++ ['"'])
  unescaped : ∀ {cs shown}, markup cs → Mark.unescape cs = .ok shown → markup shown
  markup_marks : ∀ {shelf : Shelf} {image}, (∀ s ∈ shelf.spans.toList, markup (image s)) →
    ∀ {cs}, markup cs → markup (shelf.replaceMarks image cs)

namespace Grade

/-- The grade of all texts. -/
def any : Grade where
  least := 0
  running _ := True
  value _ := True
  markup _ := True
  free _ := trivial
  word _ := trivial
  raw _ := trivial
  escaped _ := trivial
  append _ _ := trivial
  suffix _ _ := trivial
  cut _ _ := trivial
  text _ := trivial
  code _ := trivial
  settled _ _ := trivial
  running_marks _ _ _ := trivial
  value_of_running _ := trivial
  part _ _ := trivial
  spaces _ := trivial
  value_settled _ _ := trivial
  value_marks _ _ _ := trivial
  markup_of_running _ := trivial
  markup_append _ _ := trivial
  quoted _ := trivial
  unescaped _ _ := trivial
  markup_marks _ _ _ := trivial

open Mark in
/-- The grade of texts whose marks are whole. -/
def whole (least : Nat) : Grade where
  least := least
  running := Mark.Whole least
  value := Clipped least
  markup := Written least
  free h := each_of_not_mem h
  word {c} hc := ⟨fun _ => .word hc [],
    each_of_not_mem (by rcases hc with rfl | rfl <;> decide)⟩
  raw hn := whole_raw hn
  escaped {c} hc := ⟨fun _ => .whole (.escaped hc) [],
    each_of_not_mem (opening_not_mem_escaped_tail _)⟩
  append h h' := h.append h'
  suffix h hs := Each.suffix h hs
  cut h hr := h.cut hr
  text h := h.text
  code h := h.code
  settled h hs := h.of_unescape hs
  running_marks hi _ h := Mark.Whole.replaceMarks hi h
  value_of_running h := h.clipped
  part h hi := h.part hi
  spaces h := h.mapSpaces
  value_settled h hs := h.of_unescape hs
  value_marks hi _ h := Clipped.replaceMarks hi h
  markup_of_running h := h.written
  markup_append h h' := h.append h'
  quoted h := h.value.quoted
  unescaped h hs := h.of_unescape hs
  markup_marks hi _ h := Written.replaceMarks hi h

variable {g : Grade}

theorem empty : g.running [] :=
  g.free List.not_mem_nil

theorem cons {c : Char} {cs : Text} (hc : c ≠ Mark.opening) (h : g.running cs) :
    g.running (c :: cs) :=
  g.append (g.free fun hm => hc (List.mem_singleton.mp hm).symm) h

theorem concat {cs : Text} {c : Char} (h : g.running cs) (hc : c ≠ Mark.opening) :
    g.running (cs ++ [c]) :=
  g.append h (g.free fun hm => hc (List.mem_singleton.mp hm).symm)

/-- A text is cut before a character that is in no mark. -/
theorem cutBefore {cs rest : Text} {c : Char} (h : g.running (cs ++ c :: rest))
    (hc : Mark.isInner c = false) : g.running cs :=
  g.cut h fun _ hd => Option.some.inj hd ▸ hc

theorem span {p : Char → Bool} {cs front rest : Text} (h : g.running cs)
    (hs : spanWhile p cs = (front, rest)) (hp : ∀ c, Mark.isInner c = true → p c = true) :
    g.running front := by
  obtain ⟨rfl, -, hhead⟩ := spanWhile_spec hs
  refine g.cut h fun c hc => Bool.eq_false_iff.mpr fun hi => ?_
  have hout := hhead c hc
  rw [hp c hi] at hout
  cases hout

theorem dropEndWhile {p : Char → Bool} {cs : Text} (h : g.running cs)
    (hp : ∀ c, p c = true → Mark.isInner c = false) : g.running (dropEndWhile p cs) := by
  obtain ⟨behind, hcs, hall⟩ := dropEndWhile_spec p cs
  rw [hcs] at h
  refine g.cut h fun c hc => hp c (hall c ?_)
  exact List.mem_of_mem_head? hc

theorem trimStart {cs : Text} (h : g.running cs) : g.running (Text.trimStart cs) :=
  g.suffix h (List.dropWhile_suffix _)

theorem trimEnd {cs : Text} (h : g.running cs) : g.running (Text.trimEnd cs) :=
  dropEndWhile h fun _ => Mark.isInner_of_isSpace

theorem trim {cs : Text} (h : g.running cs) : g.running (Text.trim cs) :=
  trimEnd (trimStart h)

theorem joinWith {sep : Text} (hs : Mark.opening ∉ sep) {pieces : List Text}
    (h : ∀ piece ∈ pieces, g.running piece) : g.running (joinWith sep pieces) := by
  induction pieces with
  | nil => exact empty
  | cons piece pieces ih =>
    obtain ⟨hpiece, hothers⟩ := List.forall_mem_cons.mp h
    cases pieces with
    | nil => exact hpiece
    | cons next others => exact g.append (g.append hpiece (g.free hs)) (ih hothers)

/-- The pieces of a text between characters that are in no mark. -/
theorem of_joinWith {sep : Char} (hs : Mark.isInner sep = false) {pieces : List Text}
    (h : g.running (Text.joinWith [sep] pieces)) : ∀ piece ∈ pieces, g.running piece := by
  induction pieces with
  | nil => exact List.forall_mem_nil _
  | cons piece pieces ih =>
    cases pieces with
    | nil => exact List.forall_mem_singleton.mpr h
    | cons next others =>
      rw [joinWith_cons_cons, List.append_assoc, List.singleton_append] at h
      exact List.forall_mem_cons.mpr ⟨cutBefore h hs, ih (g.suffix h
        ⟨piece ++ [sep], by rw [List.append_assoc, List.singleton_append]⟩)⟩

theorem lines {cs : Text} (h : g.running cs) : ∀ line ∈ lines cs, g.running line := by
  rw [← joinWith_splitChar '\n' cs] at h
  exact of_joinWith (by decide) h

theorem ofLines {pieces : List Text} (h : ∀ piece ∈ pieces, g.running piece) :
    g.running (Text.joinWith ['\n'] pieces) :=
  joinWith (by decide) h

theorem splitText {cs : Text} (h : g.running cs) :
    ∀ piece ∈ splitText ['\n', '\n'] cs, g.running piece := by
  have hwithin (fuel : Nat) {cs : Text} (h : g.running cs) :
      ∀ piece ∈ splitTextWithin ['\n', '\n'] fuel cs, g.running piece := by
    induction fuel generalizing cs with
    | zero => exact List.forall_mem_singleton.mpr h
    | succ fuel ih =>
      unfold splitTextWithin
      split
      · exact List.forall_mem_singleton.mpr h
      · next before rest hs =>
        have hrest := ih (g.suffix h (splitFirst?_suffix hs))
        rw [splitFirst?_eq _ _ _ _ hs, List.append_assoc] at h
        exact List.forall_mem_cons.mpr ⟨cutBefore h (by decide), hrest⟩
  exact hwithin cs.length h

end Grade

end Changelog
