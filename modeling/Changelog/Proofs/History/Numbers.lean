import Changelog.Proofs.Decoration.Rendering
import Changelog.Proofs.History.Answers
import Changelog.Proofs.Marks.Alike
import Mathlib.Data.List.Forall2

/-!
# Pages do not show the numbers of marks

What becomes of a tree behind the reader is settled by the markup that its marks name.  Trees that are
alike but for the numbers, each over its own stash, are decorated, laid out and written alike, and
their pages are the same, whatever was stored before.  So the count of a parser can show only where a
reader looks into a mark, where stored markup holds marks itself, or where a number is too long to be
read.
-/

namespace Changelog

open Text

namespace Element

/-- Attributes of the same name, with values that are alike. -/
def AttrAlike (s t : Stash) (a b : String × Text) : Prop :=
  a.1 = b.1 ∧ Mark.opening ∉ a.1.toList ∧ Text.Alike s t a.2 b.2

mutual

/-- Trees that differ in the numbers of marks only. -/
inductive Alike (s t : Stash) : Tree → Tree → Prop
  | intro {tag : String} {attrs attrs' : List (String × Text)} {text text' tail tail' : Option Text}
      {children children' : List Tree} (hname : Mark.opening ∉ tag.toList)
      (hattrs : List.Forall₂ (AttrAlike s t) attrs attrs')
      (htext : Option.Rel (Text.Alike s t) text text')
      (htail : Option.Rel (Text.Alike s t) tail tail')
      (hchildren : AllAlike s t children children') :
    Alike s t ⟨tag, attrs, text, tail, children⟩ ⟨tag, attrs', text', tail', children'⟩

inductive AllAlike (s t : Stash) : List Tree → List Tree → Prop
  | nil : AllAlike s t [] []
  | cons {e f : Tree} {es fs : List Tree} (hfirst : Alike s t e f) (hothers : AllAlike s t es fs) :
    AllAlike s t (e :: es) (f :: fs)

end

end Element

variable {s t : Stash}

/-! ### Texts that may be absent -/

namespace Text.Alike

variable {text text' : Option Text}

theorem getD (h : Option.Rel (Alike s t) text text') :
    Alike s t (text.getD []) (text'.getD []) := by
  cases h with
  | none => exact .nil
  | some h => exact h

theorem map {change : Text → Text}
    (hc : ∀ {cs ds}, Alike s t cs ds → Alike s t (change cs) (change ds))
    (h : Option.Rel (Alike s t) text text') :
    Option.Rel (Alike s t) (text.map change) (text'.map change) := by
  cases h with
  | none => exact .none
  | some h => exact .some (hc h)

theorem isBlankText (h : Option.Rel (Alike s t) text text') :
    Element.isBlankText text = Element.isBlankText text' := by
  cases h with
  | none => rfl
  | some h => exact h.isBlank

theorem lineEnd : Option.Rel (Alike s t) (some ['\n']) (some ['\n']) :=
  .some (same (by decide))

theorem breakBlank (h : Option.Rel (Alike s t) text text') :
    Option.Rel (Alike s t) (Element.breakBlank text) (Element.breakBlank text') := by
  unfold Element.breakBlank
  rw [isBlankText h]
  split
  · exact lineEnd
  · exact h

theorem breakAfter (tag : String) (h : Option.Rel (Alike s t) text text') :
    Option.Rel (Alike s t) (Element.breakAfter tag text) (Element.breakAfter tag text') := by
  unfold Element.breakAfter
  rw [isBlankText h]
  split
  · split
    · exact lineEnd
    · exact map (fun h => .char (by decide) h) h
  · exact h

end Text.Alike

namespace Element

variable {e f : Tree} {es fs : List Tree}

theorem Alike.tag (h : Alike s t e f) : e.tag = f.tag := by
  cases h
  rfl

theorem Alike.text (h : Alike s t e f) : Option.Rel (Text.Alike s t) e.text f.text := by
  cases h with
  | intro _ _ htext _ _ => exact htext

theorem Alike.tail (h : Alike s t e f) : Option.Rel (Text.Alike s t) e.tail f.tail := by
  cases h with
  | intro _ _ _ htail _ => exact htail

theorem Alike.children (h : Alike s t e f) : AllAlike s t e.children f.children := by
  cases h with
  | intro _ _ _ _ hchildren => exact hchildren

theorem Alike.withText {text text' : Option Text} (h : Alike s t e f)
    (ht : Option.Rel (Text.Alike s t) text text') :
    Alike s t { e with text := text } { f with text := text' } := by
  cases h with
  | intro hname hattrs _ htail hchildren => exact .intro hname hattrs ht htail hchildren

theorem Alike.withChildren (h : Alike s t e f) (hes : AllAlike s t es fs) :
    Alike s t { e with children := es } { f with children := fs } := by
  cases h with
  | intro hname hattrs htext htail _ => exact .intro hname hattrs htext htail hes

/-! ### Decoration -/

mutual

theorem Alike.innerText : ∀ {e f : Tree}, Alike s t e f → Text.Alike s t e.innerText f.innerText
  | ⟨_, _, _, _, _⟩, _, .intro _ _ htext _ hchildren =>
    (Text.Alike.getD htext).append hchildren.innerTextAll

theorem AllAlike.innerTextAll : ∀ {es fs : List Tree}, AllAlike s t es fs →
    Text.Alike s t (innerTextAll es) (innerTextAll fs)
  | [], _, .nil => .nil
  | _ :: _, _, .cons hfirst hothers =>
    (hfirst.innerText.append (Text.Alike.getD hfirst.tail)).append hothers.innerTextAll

end

/-- Headings that are alike have the same anchor. -/
theorem Alike.textOf (h : Alike s t e f) : Anchor.textOf s e = Anchor.textOf t f :=
  h.innerText.visible

theorem setIn_alike {name : String} {value : Text} (hn : Mark.opening ∉ name.toList)
    (hv : Mark.opening ∉ value) {attrs attrs' : List (String × Text)}
    (h : List.Forall₂ (AttrAlike s t) attrs attrs') :
    List.Forall₂ (AttrAlike s t) (setIn name value attrs) (setIn name value attrs') := by
  have hown : AttrAlike s t (name, value) (name, value) := ⟨rfl, hn, .same hv⟩
  induction h with
  | nil => exact .cons hown .nil
  | @cons a b attrs attrs' hab hothers ih =>
    unfold setIn
    rw [hab.1]
    split
    · exact .cons hown hothers
    · exact .cons hab ih

theorem Alike.set {name : String} {value : Text} (hn : Mark.opening ∉ name.toList)
    (hv : Mark.opening ∉ value) (h : Alike s t e f) :
    Alike s t (e.set name value) (f.set name value) := by
  cases h with
  | intro hname hattrs htext htail hchildren =>
    exact .intro hname (setIn_alike hn hv hattrs) htext htail hchildren

theorem Alike.withClass {classes : String} (hc : Mark.opening ∉ classes.toList)
    (h : Alike s t e f) : Alike s t (e.withClass classes) (f.withClass classes) :=
  h.set (by decide) hc

theorem Alike.restyled (h : Alike s t e f) :
    Alike s t (restyled s e).1 (restyled t f).1 ∧ (restyled s e).2 = (restyled t f).2 := by
  unfold Element.restyled
  rw [h.tag, h.textOf]
  split
  · cases headingLevel f.tag with
    | error err => exact ⟨h, rfl⟩
    | ok level =>
      have hclassed := h.withClass (Graded.opening_not_mem_classes level)
      dsimp only
      split
      · cases Anchor.textOf t f with
        | error err => exact ⟨hclassed, rfl⟩
        | ok text =>
          exact ⟨hclassed.set (by decide) (Anchor.opening_not_mem_hyphenate false (lower text)), rfl⟩
      · exact ⟨hclassed, rfl⟩
  · split
    · exact ⟨h.withClass (by decide), rfl⟩
    · split
      · exact ⟨h.withClass (by decide), rfl⟩
      · exact ⟨h, rfl⟩

theorem Alike.boxed {classes : String} (hc : Mark.opening ∉ classes.toList) (h : Alike s t e f) :
    Alike s t (boxed classes e) (boxed classes f) := by
  cases h with
  | intro hname hattrs htext htail hchildren =>
    have hclass : AttrAlike s t ("class", classes.toList) ("class", classes.toList) :=
      ⟨rfl, show Mark.opening ∉ "class".toList by decide, .same hc⟩
    exact .intro (by decide) (.cons hclass .nil) .none htail
      (.cons (.intro hname hattrs htext .none hchildren) .nil)

theorem Alike.inBox (tag : String) (h : Alike s t e f) :
    Alike s t (inBox (boxOf? tag) e) (inBox (boxOf? tag) f) := by
  rw [boxOf?_eq]
  split
  · exact h.boxed (by decide)
  · exact h

mutual

/-- Trees that are alike are decorated alike, and as far as each other. -/
theorem Alike.decorateTree : ∀ {e f : Tree}, Alike s t e f →
    Alike s t (decorateTree s e).1 (decorateTree t f).1 ∧
      (decorateTree s e).2 = (decorateTree t f).2
  | ⟨tag, attrs, text, tail, children⟩, ⟨tag', attrs', text', tail', children'⟩, h => by
    have hown := h.restyled
    have htag : tag = tag' := h.tag
    cases h with
    | intro hname hattrs htext htail hchildren =>
      have hinside := hchildren.decorateForest
      unfold Element.decorateTree
      generalize restyled s ⟨tag, attrs, text, tail, children⟩ = own,
        restyled t ⟨tag, attrs', text', tail', children'⟩ = own' at hown
      obtain ⟨own, failure⟩ := own
      obtain ⟨own', failure'⟩ := own'
      obtain ⟨hown, rfl⟩ := hown
      cases failure with
      | some err => exact ⟨hown, rfl⟩
      | none => exact ⟨(hown.withChildren hinside.1).inBox tag, hinside.2⟩

theorem AllAlike.decorateForest : ∀ {es fs : List Tree}, AllAlike s t es fs →
    AllAlike s t (decorateForest s es).1 (decorateForest t fs).1 ∧
      (decorateForest s es).2 = (decorateForest t fs).2
  | [], _, .nil => ⟨.nil, rfl⟩
  | e :: es, f :: fs, .cons hfirst hothers => by
    have hown := hfirst.decorateTree
    have hrest := hothers.decorateForest
    unfold Element.decorateForest
    generalize decorateTree s e = own, decorateTree t f = own' at hown
    obtain ⟨own, failure⟩ := own
    obtain ⟨own', failure'⟩ := own'
    obtain ⟨hown, rfl⟩ := hown
    cases failure with
    | some err => exact ⟨.cons hown hothers, rfl⟩
    | none => exact ⟨.cons hown hrest.1, hrest.2⟩

end

/-! ### Layout -/

theorem Alike.isBlock (h : Alike s t e f) : e.isBlock = f.isBlock := by
  unfold Element.isBlock
  rw [h.tag]

theorem AllAlike.startsWithBlock (h : AllAlike s t es fs) :
    startsWithBlock es = startsWithBlock fs := by
  cases h with
  | nil => rfl
  | cons hfirst hothers => exact hfirst.isBlock

theorem AllAlike.isEmpty (h : AllAlike s t es fs) : es.isEmpty = fs.isEmpty := by
  cases h <;> rfl

mutual

theorem Alike.breakLines : ∀ {e f : Tree}, Alike s t e f → Alike s t e.breakLines f.breakLines
  | ⟨tag, _, _, _, _⟩, ⟨_, _, _, _, _⟩, .intro hname hattrs htext htail hchildren => by
    have hinside := hchildren.breakLinesAll
    unfold Element.breakLines
    rw [Text.Alike.isBlankText htext, hchildren.startsWithBlock]
    split
    · refine .intro hname hattrs ?_ (Text.Alike.breakBlank htail) hinside
      split
      · exact Text.Alike.lineEnd
      · exact htext
    · exact .intro hname hattrs htext (Text.Alike.breakBlank htail) hchildren

theorem AllAlike.breakLinesAll : ∀ {es fs : List Tree}, AllAlike s t es fs →
    AllAlike s t (breakLinesAll es) (breakLinesAll fs)
  | [], _, .nil => .nil
  | e :: es, f :: fs, .cons hfirst hothers => by
    have hown := hfirst.breakLines
    unfold Element.breakLinesAll
    rw [hfirst.isBlock]
    refine .cons ?_ hothers.breakLinesAll
    split
    · exact hown
    · exact hfirst

end

mutual

theorem Alike.tidy : ∀ {e f : Tree}, Alike s t e f → Alike s t e.tidy f.tidy
  | ⟨tag, _, _, _, _⟩, ⟨_, _, _, _, _⟩, .intro hname hattrs htext htail hchildren =>
    .intro hname hattrs htext (Text.Alike.breakAfter tag htail) (hchildren.tidyCode tag)

theorem AllAlike.tidyCode (tag : String) : ∀ {es fs : List Tree}, AllAlike s t es fs →
    AllAlike s t (tidyCode tag es) (tidyCode tag fs)
  | [], _, .nil => .nil
  | e :: es, f :: fs, .cons hfirst hothers => by
    have hown := hfirst.tidy
    unfold Element.tidyCode
    rw [hfirst.tag, hfirst.children.isEmpty]
    refine .cons ?_ hothers.tidyAll
    split
    · have hended {cs ds : Text} (h : Text.Alike s t cs ds) :
          Text.Alike s t (trimEnd cs ++ ['\n']) (trimEnd ds ++ ['\n']) :=
        h.trimEnd.append (.same (by decide))
      exact hown.withText (Text.Alike.map hended hown.text)
    · exact hown

theorem AllAlike.tidyAll : ∀ {es fs : List Tree}, AllAlike s t es fs →
    AllAlike s t (tidyAll es) (tidyAll fs)
  | [], _, .nil => .nil
  | _ :: _, _ :: _, .cons hfirst hothers => .cons hfirst.tidy hothers.tidyAll

end

theorem settled_alike {attrs attrs' : List (String × Text)}
    (h : List.Forall₂ (AttrAlike s t) attrs attrs') :
    List.Forall₂ (AttrAlike s t) (attrs.map fun a => (a.1, settleText a.2))
      (attrs'.map fun a => (a.1, settleText a.2)) := by
  induction h with
  | nil => exact .nil
  | cons hab _ ih => exact .cons ⟨hab.1, hab.2.1, hab.2.2.settleText⟩ ih

mutual

theorem Alike.settle : ∀ {e f : Tree}, Alike s t e f → Alike s t e.settle f.settle
  | ⟨tag, _, _, _, _⟩, ⟨_, _, _, _, _⟩, .intro hname hattrs htext htail hchildren => by
    have hinside := hchildren.settleAll
    unfold Element.settle
    refine .intro hname (settled_alike hattrs) ?_ (Text.Alike.map Text.Alike.settleText htail) hinside
    split
    · exact htext
    · exact Text.Alike.map Text.Alike.settleText htext

theorem AllAlike.settleAll : ∀ {es fs : List Tree}, AllAlike s t es fs →
    AllAlike s t (settleAll es) (settleAll fs)
  | [], _, .nil => .nil
  | _ :: _, _ :: _, .cons hfirst hothers => .cons hfirst.settle hothers.settleAll

end

theorem Alike.finalTree (h : Alike s t e f) :
    Alike s t (Parser.finalTree e) (Parser.finalTree f) :=
  h.breakLines.tidy.settle

/-! ### Writing -/

theorem insertAttr_alike {a b : String × Text} (hab : AttrAlike s t a b)
    {attrs attrs' : List (String × Text)} (h : List.Forall₂ (AttrAlike s t) attrs attrs') :
    List.Forall₂ (AttrAlike s t) (insertAttr a attrs) (insertAttr b attrs') := by
  induction h with
  | nil => exact .cons hab .nil
  | cons hown hothers ih =>
    unfold insertAttr
    rw [hab.1, hown.1]
    split
    · exact .cons hab (.cons hown hothers)
    · exact .cons hown ih

theorem sortedAttrs_alike {attrs attrs' : List (String × Text)}
    (h : List.Forall₂ (AttrAlike s t) attrs attrs') :
    List.Forall₂ (AttrAlike s t) (sortedAttrs attrs) (sortedAttrs attrs') := by
  induction h with
  | nil => exact .nil
  | cons hab _ ih => exact insertAttr_alike hab ih

theorem writeAttrs_alike {attrs attrs' : List (String × Text)}
    (h : List.Forall₂ (AttrAlike s t) attrs attrs') :
    Text.Alike s t (writeAttrs attrs) (writeAttrs attrs') := by
  have hsorted := sortedAttrs_alike h
  unfold writeAttrs
  generalize sortedAttrs attrs = as, sortedAttrs attrs' = bs at hsorted
  induction hsorted with
  | nil => exact .nil
  | @cons a b as bs hab _ ih =>
    obtain ⟨hname, hfree, hvalue⟩ := hab
    have hquoted : Text.Alike s t (Escape.value a.2 ++ ['"']) (Escape.value b.2 ++ ['"']) :=
      (hvalue.characters true).append (.same (by decide))
    rw [List.flatMap_cons, List.flatMap_cons, ← hname]
    exact Text.Alike.append (.char (by decide) (Text.Alike.front hfree
      (.char (by decide) (.char (by decide) hquoted)))) ih

mutual

theorem Alike.write : ∀ {e f : Tree}, Alike s t e f → Text.Alike s t e.write f.write
  | ⟨tag, attrs, text, tail, _⟩, ⟨_, attrs', text', tail', _⟩,
      .intro hname hattrs htext htail hchildren => by
    have hinside := hchildren.writeAll
    have hafter := (Text.Alike.getD htail).characters false
    have hstart : Text.Alike s t ('<' :: (tag.toList ++ writeAttrs attrs))
        ('<' :: (tag.toList ++ writeAttrs attrs')) :=
      .char (by decide) ((writeAttrs_alike hattrs).front hname)
    have hend : Text.Alike s t
        ('<' :: '/' :: (tag.toList ++ '>' :: Escape.text (tail.getD [])))
        ('<' :: '/' :: (tag.toList ++ '>' :: Escape.text (tail'.getD []))) :=
      .char (by decide) (.char (by decide) (Text.Alike.front hname (.char (by decide) hafter)))
    unfold Element.write
    dsimp only
    split
    · exact (hstart.append (.same (by decide))).append hafter
    · refine hstart.append (.char (by decide) (Text.Alike.append (Text.Alike.append ?_ hinside) hend))
      split
      · exact Text.Alike.getD htext
      · exact (Text.Alike.getD htext).characters false

theorem AllAlike.writeAll : ∀ {es fs : List Tree}, AllAlike s t es fs →
    Text.Alike s t (writeAll es) (writeAll fs)
  | [], _, .nil => .nil
  | _ :: _, _ :: _, .cons hfirst hothers => hfirst.write.append hothers.writeAll

end

end Element

namespace Parser

open Element

theorem writeInside_alike {e f : Tree} (h : Alike s t e f) :
    Text.Alike s t (writeInside e) (writeInside f) :=
  (((Text.Alike.getD h.text).characters false).append h.children.writeAll).trim

/-- Trees that are alike have the same page, or fail in the same way. -/
theorem finished_alike {e f : Tree} (h : Alike s t e f)
    (hroot : headingTags.contains e.tag = false) : finished s e = finished t f := by
  have hdecorated := h.decorateTree
  unfold finished
  rw [decorate_eq_decorateTree s e hroot, decorate_eq_decorateTree t f (h.tag ▸ hroot)]
  generalize decorateTree s e = a, decorateTree t f = b at hdecorated
  obtain ⟨decorated, failure⟩ := a
  obtain ⟨decorated', failure'⟩ := b
  obtain ⟨htree, rfl⟩ := hdecorated
  cases failure with
  | some err => rfl
  | none =>
    have hwithin := (writeInside_alike htree.finalTree).within s.entries.length t.entries.length
    dsimp only
    unfold page Restore.page
    rw [hwithin]

/-- Parsers that read a source alike answer alike. -/
theorem render_of_alike {parser parser' : Parser} {source : Text}
    (h : Alike (parser.read source).2.stash (parser'.read source).2.stash
      (parser.read source).1 (parser'.read source).1) :
    (parser.render source).1 = (parser'.render source).1 := by
  have hroot : headingTags.contains (parser.read source).1.tag = false := by
    rw [read_tag]
    decide
  rw [render_fst, render_fst, finished_alike h hroot]

/-- A heading that is the reference by a number stores the reference, and has the same page whatever
was read before, for as long as marks can be read. -/
theorem render_numberHeading_after {digits : Text} (hd : Mark.Digits digits) (hne : digits ≠ [])
    (requests : List Request) (hshort : (decimal (after requests).stash.count).length ≤ digitLimit) :
    ((after requests).render (numberHeading digits)).1 =
      (fresh.render (numberHeading digits)).1 := by
  have hcounted := counted_after requests
  refine render_of_alike ?_
  rw [read_numberHeading hd hne, read_numberHeading hd hne]
  have hentry : ((after requests).stash.store (Span.numberReference digits)).2.SameEntry
      (fresh.stash.store (Span.numberReference digits)).2 (after requests).stash.count 0
      (Span.numberReference digits) := by
    refine ⟨?_, rfl, Span.not_mem_numberReference hd (by decide), hshort, by decide⟩
    rw [← hcounted]
    exact List.getElem?_concat_length
  have hmark := Text.Alike.raw hentry .nil
  rw [List.append_nil, List.append_nil] at hmark
  exact .intro (by decide) .nil .none .none
    (.cons (.intro (by decide) .nil (.some hmark) .none .nil) .nil)

-- A reader that looks into a mark: the mail address in the emphasis is read again, with the mark of
-- the tag in it, and its characters are disguised one by one.
example :
    let source := "**x *<a@<b>>* y**".toList
    (fresh.render source).2.stash.entries = ["<b>".toList] ∧
      ((after [.convert "<hr>".toList]).render source).1 ≠ (fresh.render source).1 := by
  decide +kernel

end Parser

end Changelog
