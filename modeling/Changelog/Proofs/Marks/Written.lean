import Changelog.Proofs.Anchors.Agreement
import Changelog.Proofs.Marks.Headings

/-!
# Marks on the written page

The texts of a tree stay of their grade when it is decorated, laid out and settled, so that no mark
is cut on the page that is written from it.
-/

namespace Changelog

open Text

namespace Element.Graded

variable {g : Grade}

/-! ### Decoration -/

theorem set {e : Tree} (h : Graded g e) {name : String} {value : Text}
    (hn : Mark.opening ∉ name.toList) (hv : Mark.opening ∉ value) : Graded g (e.set name value) := by
  refine ⟨h.tag, ?_, h.text, h.tail, h.children⟩
  intro a ha
  rcases mem_setIn name value e.attrs a ha with rfl | ha
  · exact ⟨hn, g.value_of_running (g.free hv)⟩
  · exact h.attrs a ha

theorem withClass {e : Tree} (h : Graded g e) {classes : String}
    (hc : Mark.opening ∉ classes.toList) : Graded g (e.withClass classes) :=
  h.set (by decide) hc

theorem boxed {e : Tree} (h : Graded g e) {classes : String}
    (hc : Mark.opening ∉ classes.toList) : Graded g (Element.boxed classes e) := by
  have hinner : Graded g { e with tail := none } :=
    ⟨h.tag, h.attrs, h.text, Grade.empty, h.children⟩
  refine ⟨show Mark.opening ∉ "div".toList by decide, ?_, Grade.empty, h.tail,
    List.forall_mem_singleton.mpr hinner⟩
  exact List.forall_mem_singleton.mpr
    ⟨show Mark.opening ∉ "class".toList by decide, g.value_of_running (g.free hc)⟩

theorem opening_not_mem_classes (level : Int) :
    Mark.opening ∉ (HeadingLook.ofLevel level).classes.toList := by
  unfold HeadingLook.ofLevel
  split
  · decide
  · decide
  · decide
  · decide

theorem restyled (stash : Stash) {e : Tree} (h : Graded g e) :
    Graded g (Element.restyled stash e).1 := by
  unfold Element.restyled
  split
  · cases headingLevel e.tag with
    | error err => exact h
    | ok level =>
      have hclassed := h.withClass (opening_not_mem_classes level)
      dsimp only
      split
      · cases Anchor.textOf stash e with
        | error err => exact hclassed
        | ok text =>
          exact hclassed.set (by decide) (Anchor.opening_not_mem_hyphenate false (lower text))
      · exact hclassed
  · split
    · exact h.withClass (by decide)
    · split
      · exact h.withClass (by decide)
      · exact h

theorem inBox (tag : String) {e : Tree} (h : Graded g e) :
    Graded g (Element.inBox (boxOf? tag) e) := by
  rw [boxOf?_eq]
  split
  · exact h.boxed (by decide)
  · exact h

mutual

theorem decorateTree (stash : Stash) : ∀ {e : Tree}, Graded g e →
    Graded g (Element.decorateTree stash e).1
  | ⟨tag, attrs, text, tail, children⟩, h => by
    have hown := h.restyled stash
    have hinside := decorateForest stash children h.children
    unfold Element.decorateTree
    cases hr : Element.restyled stash ⟨tag, attrs, text, tail, children⟩ with
    | mk own failure =>
      rw [hr] at hown
      cases failure with
      | some err => exact hown
      | none => exact (hown.withChildren hinside).inBox tag

theorem decorateForest (stash : Stash) : ∀ es : List Tree, (∀ e ∈ es, Graded g e) →
    ∀ e ∈ (Element.decorateForest stash es).1, Graded g e
  | [], _ => List.forall_mem_nil _
  | e :: es, h => by
    obtain ⟨hown, hothers⟩ := List.forall_mem_cons.mp h
    have hfirst := decorateTree stash hown
    have hrest := decorateForest stash es hothers
    unfold Element.decorateForest
    cases hd : Element.decorateTree stash e with
    | mk first failure =>
      rw [hd] at hfirst
      cases failure with
      | some err => exact List.forall_mem_cons.mpr ⟨hfirst, hothers⟩
      | none => exact List.forall_mem_cons.mpr ⟨hfirst, hrest⟩

end

/-! ### Layout -/

theorem running_break {text : Option Text} (h : g.running (text.getD [])) {c : Prop} [Decidable c] :
    g.running ((if c then some ['\n'] else text).getD []) := by
  split
  · exact g.free (by decide)
  · exact h

mutual

theorem breakLines : ∀ {e : Tree}, Graded g e → Graded g (Element.breakLines e)
  | ⟨tag, attrs, text, tail, children⟩, h => by
    have htail : g.running ((breakBlank tail).getD []) := running_break h.tail
    have hchildren := breakLinesAll children h.children
    unfold Element.breakLines
    split
    · exact ⟨h.tag, h.attrs, running_break h.text, htail, hchildren⟩
    · exact ⟨h.tag, h.attrs, h.text, htail, h.children⟩

theorem breakLinesAll : ∀ es : List Tree, (∀ e ∈ es, Graded g e) →
    ∀ e ∈ Element.breakLinesAll es, Graded g e
  | [], _ => List.forall_mem_nil _
  | e :: es, h => by
    obtain ⟨hown, hothers⟩ := List.forall_mem_cons.mp h
    refine List.forall_mem_cons.mpr ⟨?_, breakLinesAll es hothers⟩
    split
    · exact breakLines hown
    · exact hown

end

theorem running_breakAfter (tag : String) {tail : Option Text} (h : g.running (tail.getD [])) :
    g.running ((breakAfter tag tail).getD []) := by
  unfold breakAfter
  split
  · split
    · exact g.free (by decide)
    · cases tail with
      | none => exact Grade.empty
      | some cs => exact Grade.cons (by decide) h
  · exact h

theorem withText {e : Tree} (h : Graded g e) {text : Option Text}
    (ht : g.running (text.getD [])) : Graded g { e with text } :=
  ⟨h.tag, h.attrs, ht, h.tail, h.children⟩

mutual

theorem tidy : ∀ {e : Tree}, Graded g e → Graded g (Element.tidy e)
  | ⟨tag, _, _, _, children⟩, h =>
    ⟨h.tag, h.attrs, h.text, running_breakAfter tag h.tail, tidyCode tag children h.children⟩

theorem tidyCode (tag : String) : ∀ es : List Tree, (∀ e ∈ es, Graded g e) →
    ∀ e ∈ Element.tidyCode tag es, Graded g e
  | [], _ => List.forall_mem_nil _
  | e :: es, h => by
    obtain ⟨hown, hothers⟩ := List.forall_mem_cons.mp h
    have hcode := tidy hown
    refine List.forall_mem_cons.mpr ⟨?_, tidyAll es hothers⟩
    split
    · refine hcode.withText ?_
      cases ht : (Element.tidy e).text with
      | none => exact Grade.empty
      | some cs =>
        have hrunning := hcode.text
        rw [ht] at hrunning
        exact Grade.concat (Grade.trimEnd hrunning) (by decide)
    · exact hcode

theorem tidyAll : ∀ es : List Tree, (∀ e ∈ es, Graded g e) →
    ∀ e ∈ Element.tidyAll es, Graded g e
  | [], _ => List.forall_mem_nil _
  | e :: es, h => by
    obtain ⟨hown, hothers⟩ := List.forall_mem_cons.mp h
    exact List.forall_mem_cons.mpr ⟨tidy hown, tidyAll es hothers⟩

end

/-! ### Escaped characters -/

theorem running_settleText {cs : Text} (h : g.running cs) : g.running (settleText cs) := by
  unfold settleText
  split
  · next hs => exact g.settled h hs
  · exact h

theorem value_settleText {cs : Text} (h : g.value cs) : g.value (settleText cs) := by
  unfold settleText
  split
  · next hs => exact g.value_settled h hs
  · exact h

theorem running_settled {text : Option Text} (h : g.running (text.getD [])) :
    g.running ((text.map settleText).getD []) := by
  cases text with
  | none => exact h
  | some cs => exact running_settleText h

mutual

theorem settle : ∀ {e : Tree}, Graded g e → Graded g (Element.settle e)
  | ⟨tag, attrs, text, tail, children⟩, h => by
    have htext : g.running ((if tag = "code" then text else text.map settleText).getD []) := by
      split
      · exact h.text
      · exact running_settled h.text
    refine ⟨h.tag, ?_, htext, running_settled h.tail, settleAll children h.children⟩
    intro a ha
    obtain ⟨b, hb, rfl⟩ := List.mem_map.mp ha
    exact (h.attrs b hb).imp_right value_settleText

theorem settleAll : ∀ es : List Tree, (∀ e ∈ es, Graded g e) →
    ∀ e ∈ Element.settleAll es, Graded g e
  | [], _ => List.forall_mem_nil _
  | e :: es, h => by
    obtain ⟨hown, hothers⟩ := List.forall_mem_cons.mp h
    exact List.forall_mem_cons.mpr ⟨settle hown, settleAll es hothers⟩

end

theorem finalTree {e : Tree} (h : Graded g e) : Graded g (Parser.finalTree e) :=
  h.breakLines.tidy.settle

end Element.Graded

namespace Element

/-- The first text of an element with its escaped characters put back; the text of code holds none. -/
def settleLead? (tag : String) (text : Option Text) : Except NumberError (Option Text) :=
  if tag = "code" then .ok text else text.mapM Mark.unescape

mutual

/-- Escaped characters put back, where a mark that names no character is the failure of the whole
tree. -/
def settle? : Tree → Except NumberError Tree
  | ⟨tag, attrs, text, tail, children⟩ => do
    let attrs ← attrs.mapM fun a => (Mark.unescape a.2).map fun value => (a.1, value)
    let text ← settleLead? tag text
    let tail ← tail.mapM Mark.unescape
    let children ← settleAll? children
    return ⟨tag, attrs, text, tail, children⟩

def settleAll? : List Tree → Except NumberError (List Tree)
  | [] => .ok []
  | e :: es => do
    let first ← settle? e
    let others ← settleAll? es
    return first :: others

end

theorem unescape_eq_settleText {cs : Text} (h : ∃ shown, Mark.unescape cs = .ok shown) :
    Mark.unescape cs = .ok (settleText cs) := by
  obtain ⟨shown, hshown⟩ := h
  rw [settleText, hshown]

variable {least : Nat}

theorem mapM_attrs {attrs : List (String × Text)}
    (h : ∀ a ∈ attrs, Mark.Clipped least a.2) :
    (attrs.mapM fun a => (Mark.unescape a.2).map fun value => (a.1, value)) =
      .ok (attrs.map fun a => (a.1, settleText a.2)) := by
  induction attrs with
  | nil => rfl
  | cons a attrs ih =>
    obtain ⟨hown, hothers⟩ := List.forall_mem_cons.mp h
    rw [List.mapM_cons, unescape_eq_settleText hown.unescape, ih hothers]
    rfl

theorem mapM_text {text : Option Text} (h : Mark.Whole least (text.getD [])) :
    text.mapM Mark.unescape = .ok (text.map settleText) := by
  cases text with
  | none => rfl
  | some cs =>
    have hcs : Mark.Whole least cs := h
    rw [Option.mapM_some, unescape_eq_settleText hcs.written.unescape]
    rfl

theorem settleLead?_eq (tag : String) {text : Option Text} (h : Mark.Whole least (text.getD [])) :
    settleLead? tag text = .ok (if tag = "code" then text else text.map settleText) := by
  unfold settleLead?
  split
  · rfl
  · exact mapM_text h

mutual

theorem settle?_eq : ∀ {e : Tree}, Graded (Grade.whole least) e → e.settle? = .ok e.settle
  | ⟨tag, attrs, text, tail, children⟩, h => by
    have hattrs := mapM_attrs fun a ha => (h.attrs a ha).2
    rw [settle?, hattrs, settleLead?_eq tag h.text, mapM_text h.tail,
      settleAll?_eq children h.children]
    rfl

theorem settleAll?_eq : ∀ es : List Tree, (∀ e ∈ es, Graded (Grade.whole least) e) →
    settleAll? es = .ok (settleAll es)
  | [], _ => rfl
  | e :: es, h => by
    obtain ⟨hown, hothers⟩ := List.forall_mem_cons.mp h
    rw [settleAll?, settle?_eq hown, settleAll?_eq es hothers]
    rfl

end

end Element

end Changelog
