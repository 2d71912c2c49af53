import Changelog.Proofs.Document.Grade
import Changelog.Proofs.Document.Vocabulary
import Changelog.Proofs.Tree.Address

/-!
# Sound drafts

A draft is sound when its elements are in the vocabulary of documents and its texts are of a grade.
Drafts are filled from the outside, so that growth is stated of an element that may itself be no part
of a document.
-/

namespace Changelog

/-- The addresses and titles of link targets are of the grade of values. -/
def References.Sound (g : Grade) (references : References) : Prop :=
  ∀ r ∈ references, g.value r.2.1 ∧ ∀ title ∈ r.2.2, g.value title

namespace Element

open Text

/-- Whether a tag and attributes are in the vocabulary, with values of the grade. -/
def Fits (g : Grade) (tag : String) (attrs : List (String × Text)) : Prop :=
  tag ∈ documentTags ∧ ∀ a ∈ attrs, a.1 ∈ documentAttrs ∧ g.value a.2

/-- Every element of the draft is in the vocabulary, and all texts are of the grade. -/
inductive Sound (g : Grade) : Draft → Prop
  | intro {d : Draft} (fits : Fits g d.tag d.attrs) (text : g.running (Draft.charsOf d.text))
      (tail : g.running (Draft.charsOf d.tail))
      (children : ∀ child ∈ d.children, Sound g child) : Sound g d

/-- The texts inside an element are of the grade, and its children are sound. -/
structure Inside (g : Grade) (d : Draft) : Prop where
  text : g.running (Draft.charsOf d.text)
  children : ∀ child ∈ d.children, Sound g child

variable {g : Grade}

namespace Sound

variable {d : Draft}

theorem fits (h : Sound g d) : Fits g d.tag d.attrs := by
  cases h with
  | intro fits text tail children => exact fits

theorem tail (h : Sound g d) : g.running (Draft.charsOf d.tail) := by
  cases h with
  | intro fits text tail children => exact tail

theorem inside (h : Sound g d) : Inside g d := by
  cases h with
  | intro fits text tail children => exact ⟨text, children⟩

theorem withText (h : Sound g d) {text : Option Piece} (ht : g.running (Draft.charsOf text)) :
    Sound g { d with text } :=
  ⟨h.fits, ht, h.tail, h.inside.children⟩

theorem withTail (h : Sound g d) {tail : Option Piece} (ht : g.running (Draft.charsOf tail)) :
    Sound g { d with tail } :=
  ⟨h.fits, h.inside.text, ht, h.inside.children⟩

theorem withChildren (h : Sound g d) {children : List Draft}
    (hc : ∀ child ∈ children, Sound g child) : Sound g { d with children } :=
  ⟨h.fits, h.inside.text, h.tail, hc⟩

end Sound

theorem fits_nil {tag : String} (h : tag ∈ documentTags) : Fits g tag [] :=
  ⟨h, List.forall_mem_nil _⟩

theorem sound_leaf {tag : String} (h : tag ∈ documentTags) {text : Option Piece}
    (ht : g.running (Draft.charsOf text)) : Sound g (⟨tag, [], text, none, []⟩ : Draft) :=
  ⟨fits_nil h, ht, Grade.empty, List.forall_mem_nil _⟩

theorem sound_bare {tag : String} (h : tag ∈ documentTags) :
    Sound g (Element.bare tag : Draft) :=
  sound_leaf h Grade.empty

theorem sound_inner {tag : String} (h : tag ∈ documentTags) {children : List Draft}
    (hc : ∀ child ∈ children, Sound g child) :
    Sound g (⟨tag, [], none, none, children⟩ : Draft) :=
  ⟨fits_nil h, Grade.empty, Grade.empty, hc⟩

theorem sound_ofText {tag : String} (h : tag ∈ documentTags) {chars : Text}
    (hc : g.running chars) : Sound g (Draft.ofText tag chars) :=
  sound_leaf h hc

theorem mem_setIn (name : String) (value : Text) (attrs : List (String × Text))
    (a : String × Text) (h : a ∈ setIn name value attrs) : a = (name, value) ∨ a ∈ attrs := by
  induction attrs with
  | nil => exact Or.inl (List.mem_singleton.mp h)
  | cons b attrs ih =>
    unfold setIn at h
    split at h
    · rcases List.mem_cons.mp h with h | h
      · exact Or.inl h
      · exact Or.inr (List.mem_cons_of_mem b h)
    · rcases List.mem_cons.mp h with h | h
      · exact Or.inr (h ▸ List.mem_cons_self)
      · rcases ih h with h | h
        · exact Or.inl h
        · exact Or.inr (List.mem_cons_of_mem b h)

theorem Sound.set {d : Draft} (h : Sound g d) {name : String} {value : Text}
    (hn : name ∈ documentAttrs) (hv : g.value value) : Sound g (d.set name value) := by
  refine ⟨⟨h.fits.1, ?_⟩, h.inside.text, h.tail, h.inside.children⟩
  intro a ha
  rcases mem_setIn name value d.attrs a ha with ha | ha
  · rw [ha]
    exact ⟨hn, hv⟩
  · exact h.fits.2 a ha

/-! ### Drafts that are filled -/

/-- An element after more was put into it: its label and its tail are the same, and what is inside
is sound if it was before. -/
structure Grown (g : Grade) (before after : Draft) : Prop where
  tag : after.tag = before.tag
  attrs : after.attrs = before.attrs
  tail : after.tail = before.tail
  inside : Inside g before → Inside g after

namespace Grown

theorem refl (d : Draft) : Grown g d d :=
  ⟨rfl, rfl, rfl, id⟩

theorem trans {d e f : Draft} (h : Grown g d e) (h' : Grown g e f) : Grown g d f :=
  ⟨h'.tag.trans h.tag, h'.attrs.trans h.attrs, h'.tail.trans h.tail,
    fun hi => h'.inside (h.inside hi)⟩

theorem sound {d e : Draft} (h : Grown g d e) (hd : Sound g d) : Sound g e := by
  have hinside := h.inside hd.inside
  refine ⟨?_, hinside.text, ?_, hinside.children⟩
  · rw [h.tag, h.attrs]
    exact hd.fits
  · rw [h.tail]
    exact hd.tail

theorem append (d : Draft) {child : Draft} (h : Sound g child) : Grown g d (d.append child) := by
  refine ⟨rfl, rfl, rfl, fun hi => ⟨hi.text, ?_⟩⟩
  intro c hc
  rcases List.mem_append.mp hc with hc | hc
  · exact hi.children c hc
  · rw [List.mem_singleton.mp hc]
    exact h

/-- The last child changed in a way that keeps it sound. -/
theorem mapLast (f : Draft → Draft) (d : Draft)
    (h : ∀ child, d.lastChild? = some child → Sound g child → Sound g (f child)) :
    Grown g d (d.mapLast f) := by
  unfold Element.mapLast
  cases hl : d.lastChild? with
  | none => exact refl d
  | some child =>
    refine ⟨rfl, rfl, rfl, fun hi => ⟨hi.text, ?_⟩⟩
    intro c hc
    rcases List.mem_append.mp hc with hc | hc
    · exact hi.children c (List.dropLast_subset _ hc)
    · rw [List.mem_singleton.mp hc]
      exact h child hl (hi.children child (List.mem_of_getLast? hl))

end Grown

/-! ### Finished drafts -/

mutual

theorem Sound.named : ∀ {d : Draft}, Sound g d → Named d.finish
  | ⟨_, _, _, _, children⟩, h =>
    ⟨⟨h.fits.1, fun a ha => (h.fits.2 a ha).1⟩, Sound.namedAll children h.inside.children⟩

theorem Sound.namedAll : ∀ ds : List Draft, (∀ d ∈ ds, Sound g d) →
    ∀ e ∈ Element.mapAll Piece.chars ds, Named e
  | [], _ => List.forall_mem_nil _
  | d :: ds, h => by
    obtain ⟨hfirst, hothers⟩ := List.forall_mem_cons.mp h
    exact List.forall_mem_cons.mpr ⟨Sound.named hfirst, Sound.namedAll ds hothers⟩

end

theorem map_chars (piece : Option Piece) :
    (piece.map Piece.chars).getD [] = Draft.charsOf piece := by
  cases piece with
  | none => rfl
  | some p => rfl

/-- The labels of the tree hold no marks, and all its texts are of the grade. -/
inductive Graded (g : Grade) : Tree → Prop
  | intro {e : Tree} (tag : Mark.opening ∉ e.tag.toList)
      (attrs : ∀ a ∈ e.attrs, Mark.opening ∉ a.1.toList ∧ g.value a.2)
      (text : g.running (e.text.getD [])) (tail : g.running (e.tail.getD []))
      (children : ∀ child ∈ e.children, Graded g child) : Graded g e

namespace Graded

variable {e : Tree}

theorem tag (h : Graded g e) : Mark.opening ∉ e.tag.toList := by
  cases h with
  | intro tag attrs text tail children => exact tag

theorem attrs (h : Graded g e) : ∀ a ∈ e.attrs, Mark.opening ∉ a.1.toList ∧ g.value a.2 := by
  cases h with
  | intro tag attrs text tail children => exact attrs

theorem text (h : Graded g e) : g.running (e.text.getD []) := by
  cases h with
  | intro tag attrs text tail children => exact text

theorem tail (h : Graded g e) : g.running (e.tail.getD []) := by
  cases h with
  | intro tag attrs text tail children => exact tail

theorem children (h : Graded g e) : ∀ child ∈ e.children, Graded g child := by
  cases h with
  | intro tag attrs text tail children => exact children

end Graded

theorem opening_not_mem_tag {tag : String} (h : tag ∈ documentTags) :
    Mark.opening ∉ tag.toList := by
  have hall : ∀ tag ∈ documentTags, Mark.opening ∉ tag.toList := by decide
  exact hall tag h

theorem opening_not_mem_attr {name : String} (h : name ∈ documentAttrs) :
    Mark.opening ∉ name.toList := by
  have hall : ∀ name ∈ documentAttrs, Mark.opening ∉ name.toList := by decide
  exact hall name h

mutual

theorem Sound.graded : ∀ {d : Draft}, Sound g d → Graded g d.finish
  | ⟨tag, attrs, text, tail, children⟩, h => by
    have htext := h.inside.text
    have htail := h.tail
    rw [← map_chars] at htext htail
    exact ⟨opening_not_mem_tag h.fits.1,
      fun a ha => (h.fits.2 a ha).imp_left opening_not_mem_attr, htext, htail,
      Sound.gradedAll children h.inside.children⟩

theorem Sound.gradedAll : ∀ ds : List Draft, (∀ d ∈ ds, Sound g d) →
    ∀ e ∈ Element.mapAll Piece.chars ds, Graded g e
  | [], _ => List.forall_mem_nil _
  | d :: ds, h => by
    obtain ⟨hfirst, hothers⟩ := List.forall_mem_cons.mp h
    exact List.forall_mem_cons.mpr ⟨Sound.graded hfirst, Sound.gradedAll ds hothers⟩

end

mutual

/-- The text inside a tree is running text. -/
theorem Graded.innerText : ∀ {e : Tree}, Graded g e → g.running e.innerText
  | ⟨_, _, _, _, children⟩, h => g.append h.text (Graded.innerTextAll children h.children)

theorem Graded.innerTextAll : ∀ es : List Tree, (∀ e ∈ es, Graded g e) →
    g.running (Element.innerTextAll es)
  | [], _ => Grade.empty
  | e :: es, h => by
    obtain ⟨hfirst, hothers⟩ := List.forall_mem_cons.mp h
    exact g.append (g.append (Graded.innerText hfirst) hfirst.tail)
      (Graded.innerTextAll es hothers)

end

theorem Grade.markup_free {cs : Text} (h : Mark.opening ∉ cs) : g.markup cs :=
  g.markup_of_running (g.free h)

theorem markup_writeAttrs {attrs : List (String × Text)}
    (h : ∀ a ∈ attrs, Mark.opening ∉ a.1.toList ∧ g.value a.2) : g.markup (writeAttrs attrs) := by
  have hsorted : ∀ a ∈ sortedAttrs attrs, Mark.opening ∉ a.1.toList ∧ g.value a.2 :=
    fun a ha => h a (Html.mem_sortedAttrs a attrs ha)
  unfold writeAttrs
  generalize sortedAttrs attrs = sorted at hsorted
  induction sorted with
  | nil => exact Grade.markup_free List.not_mem_nil
  | cons a sorted ih =>
    obtain ⟨⟨hname, hvalue⟩, hothers⟩ := List.forall_mem_cons.mp hsorted
    have hlead : Mark.opening ∉ ' ' :: (a.1.toList ++ ['=', '"']) := by
      rw [List.mem_cons, List.mem_append, not_or, not_or]
      exact ⟨by decide, hname, by decide⟩
    have hsplit : (a :: sorted).flatMap (fun a =>
        ' ' :: (a.1.toList ++ '=' :: '"' :: (Escape.value a.2 ++ ['"']))) =
        ' ' :: (a.1.toList ++ ['=', '"']) ++ (Escape.value a.2 ++ ['"']) ++
          sorted.flatMap fun a =>
            ' ' :: (a.1.toList ++ '=' :: '"' :: (Escape.value a.2 ++ ['"'])) := by
      simp only [List.flatMap_cons, List.cons_append, List.append_assoc, List.nil_append]
    rw [hsplit]
    exact g.markup_append (g.markup_append (Grade.markup_free hlead) (g.quoted hvalue))
      (ih hothers)

mutual

/-- The written form of a tree is markup. -/
theorem Graded.write : ∀ {e : Tree}, Graded g e → g.markup e.write
  | ⟨tag, attrs, text, tail, children⟩, h => by
    have hchildren := Graded.writeAll children h.children
    have hname : Mark.opening ∉ tag.toList := h.tag
    have hattrs := markup_writeAttrs h.attrs
    have htext : g.running (text.getD []) := h.text
    have htail := g.markup_of_running (g.text h.tail)
    have hstart : g.markup ('<' :: (tag.toList ++ writeAttrs attrs)) := by
      rw [← List.cons_append]
      refine g.markup_append (Grade.markup_free ?_) hattrs
      rw [List.mem_cons, not_or]
      exact ⟨by decide, hname⟩
    have hend : g.markup ('<' :: '/' :: (tag.toList ++ ['>'])) := by
      refine Grade.markup_free ?_
      rw [List.mem_cons, List.mem_cons, List.mem_append, not_or, not_or, not_or]
      exact ⟨by decide, by decide, hname, by decide⟩
    have hshown : g.markup (if scriptTags.contains (String.ofList (lowerAscii tag.toList)) then
        text.getD [] else Escape.text (text.getD [])) := by
      split
      · exact g.markup_of_running htext
      · exact g.markup_of_running (g.text htext)
    unfold Element.write
    dsimp only
    split
    · have hclose : g.markup (" />".toList) := Grade.markup_free (by decide)
      exact g.markup_append (g.markup_append hstart hclose) htail
    · have hbracket : g.markup ['>'] := Grade.markup_free (by decide)
      have hwhole := g.markup_append (g.markup_append (g.markup_append
        (g.markup_append (g.markup_append hstart hbracket) hshown) hchildren) hend) htail
      simp only [List.cons_append, List.append_assoc, List.nil_append] at hwhole ⊢
      exact hwhole

theorem Graded.writeAll : ∀ es : List Tree, (∀ e ∈ es, Graded g e) →
    g.markup (Element.writeAll es)
  | [], _ => Grade.markup_free List.not_mem_nil
  | e :: es, h => by
    obtain ⟨hfirst, hothers⟩ := List.forall_mem_cons.mp h
    exact g.markup_append (Graded.write hfirst) (Graded.writeAll es hothers)

end

theorem Graded.withChildren {e : Tree} (h : Graded g e) {children : List Tree}
    (hc : ∀ child ∈ children, Graded g child) : Graded g { e with children } :=
  ⟨h.tag, h.attrs, h.text, h.tail, hc⟩

theorem Graded.at? : ∀ {address : Address} {e found : Tree}, Graded g e →
    e.at? address = some found → Graded g found
  | [], e, found, h, hat => by
    cases hat
    exact h
  | i :: address, e, found, h, hat => by
    rw [at?_cons] at hat
    obtain ⟨child, hchild, hat⟩ := Option.bind_eq_some_iff.mp hat
    exact Graded.at? (h.children child (List.mem_of_getElem? hchild)) hat

/-- A document as it is read: a bare `div` with sound elements in it. -/
structure Root (g : Grade) (d : Draft) : Prop where
  tag : d.tag = "div"
  attrs : d.attrs = []
  tail : d.tail = none
  inside : Inside g d

theorem Root.graded {d : Draft} (h : Root g d) : Graded g d.finish := by
  obtain ⟨tag, attrs, text, tail, children⟩ := d
  obtain ⟨rfl, rfl, rfl, hi⟩ := h
  have htext := hi.text
  rw [← map_chars] at htext
  exact ⟨show Mark.opening ∉ "div".toList by decide, List.forall_mem_nil _, htext, Grade.empty,
    Sound.gradedAll children hi.children⟩

end Element

end Changelog
