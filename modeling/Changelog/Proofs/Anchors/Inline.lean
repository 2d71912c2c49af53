import Changelog.Proofs.Anchors.Ampersands
import Changelog.Proofs.Document.Vocabulary

/-!
# Elements inside headings

The elements inside a heading are written with their tags, and a reader who skips the tags is left
with the texts of the elements one after the other.
-/

namespace Changelog

open Text Element

/-- The tags of elements that stand in the running text of a heading. -/
def inlineTags : List String :=
  ["a", "code", "em", "img", "strong"]

namespace Token

mutual

/-- The texts of an element in document order, without the tail of the element. -/
def texts : Element (List Token) → List (List Token)
  | ⟨_, _, text, _, children⟩ => text.getD [] :: textsAll children

/-- The texts of elements and the tails after them. -/
def textsAll : List (Element (List Token)) → List (List Token)
  | [] => []
  | e :: es => texts e ++ e.tail.getD [] :: textsAll es

end

/-- An element of running text: no marks but those of ampersands are left in its attributes once they
are settled, code holds no marks, and an image nothing at all. -/
inductive Inline : Element (List Token) → Prop
  | intro {e : Element (List Token)} (tag : e.tag ∈ inlineTags)
      (attrs : ∀ a ∈ e.attrs, a.1 ∈ documentAttrs ∧ Mark.OnlyAmpersands (settleText a.2))
      (code : e.tag = "code" → ∀ t ∈ e.text.getD [], ∃ c, t = .char c)
      (image : e.tag = "img" → e.text = none ∧ e.children = [])
      (children : ∀ child ∈ e.children, Inline child) : Inline e

/-- The attributes of an element in their final form. -/
def settledAttrs (attrs : List (String × Text)) : List (String × Text) :=
  attrs.map fun a => (a.1, settleText a.2)

mutual

/-- An element and its tail as they are written, with its attributes shown by `shown`, stored markup
by `image`, and `ampersand` in front of the codes of disguised characters. -/
def written (shown : Text → Text) (ampersand : Text) (image : Nat → Text) :
    Element (List Token) → Text
  | ⟨tag, attrs, text, tail, children⟩ =>
    let start := '<' :: (tag.toList ++ shown (writeAttrs (settledAttrs attrs)))
    let after := page ampersand image (tail.getD [])
    if tag = "img" then start ++ " />".toList ++ after
    else
      start ++ '>' :: (page ampersand image (text.getD []) ++
        writtenAll shown ampersand image children ++ '<' :: '/' :: (tag.toList ++ '>' :: after))

/-- Elements as they are written one after the other. -/
def writtenAll (shown : Text → Text) (ampersand : Text) (image : Nat → Text) :
    List (Element (List Token)) → Text
  | [] => []
  | e :: es => written shown ampersand image e ++ writtenAll shown ampersand image es

end

/-! ### The texts inside an element -/

mutual

theorem innerText_map : ∀ e : Element (List Token),
    innerText (e.map write) = write (texts e).flatten
  | ⟨tag, attrs, text, tail, children⟩ => by
    have hinner := innerTextAll_mapAll children
    have htext : (text.map write).getD [] = write (text.getD []) := by
      cases text with
      | none => rfl
      | some tokens => rfl
    rw [Element.map, innerText, hinner, htext, texts, List.flatten_cons, write, write, write,
      List.flatMap_append]

theorem innerTextAll_mapAll : ∀ es : List (Element (List Token)),
    innerTextAll (mapAll write es) = write (textsAll es).flatten
  | [] => rfl
  | e :: es => by
    have hfirst := innerText_map e
    have hothers := innerTextAll_mapAll es
    obtain ⟨tag, attrs, text, tail, children⟩ := e
    have htail : (tail.map write).getD [] = write (tail.getD []) := by
      cases tail with
      | none => rfl
      | some tokens => rfl
    rw [mapAll, innerTextAll, hfirst, hothers, textsAll, List.flatten_append, List.flatten_cons]
    show write _ ++ (tail.map write).getD [] ++ write _ = _
    rw [htail, write, write, write, write, List.flatMap_append, List.flatMap_append,
      List.append_assoc]

end

/-! ### The written form -/

theorem settled_text (text : Option (List Token)) (hf : ∀ t ∈ text.getD [], t.IsFree) :
    ((text.map write).map settleText).getD [] = settled (text.getD []) := by
  cases text with
  | none => rfl
  | some tokens => exact settleText_write tokens hf

theorem write_of_chars (tokens : List Token) (h : ∀ t ∈ tokens, ∃ c, t = .char c) :
    write tokens = settled tokens := by
  induction tokens with
  | nil => rfl
  | cons t tokens ih =>
    obtain ⟨⟨c, rfl⟩, hothers⟩ := List.forall_mem_cons.mp h
    rw [write, settled, List.flatMap_cons, List.flatMap_cons]
    exact congrArg ([c] ++ ·) (ih hothers)

theorem isFree_append {texts more : List (List Token)}
    (h : ∀ t ∈ (texts ++ more).flatten, t.IsFree) :
    (∀ t ∈ texts.flatten, t.IsFree) ∧ ∀ t ∈ more.flatten, t.IsFree := by
  rw [List.flatten_append] at h
  exact ⟨fun t ht => h t (List.mem_append_left _ ht), fun t ht => h t (List.mem_append_right _ ht)⟩

theorem isFree_cons {tokens : List Token} {more : List (List Token)}
    (h : ∀ t ∈ (tokens :: more).flatten, t.IsFree) :
    (∀ t ∈ tokens, t.IsFree) ∧ ∀ t ∈ more.flatten, t.IsFree := by
  rw [List.flatten_cons] at h
  exact ⟨fun t ht => h t (List.mem_append_left _ ht), fun t ht => h t (List.mem_append_right _ ht)⟩

/-- Which of the tags in running text are written as one tag, and none as scripts. -/
theorem tag_written {tag : String} (h : tag ∈ inlineTags) :
    emptyTags.contains (String.ofList (lowerAscii tag.toList)) = decide (tag = "img") ∧
      scriptTags.contains (String.ofList (lowerAscii tag.toList)) = false := by
  simp only [inlineTags, List.mem_cons, List.not_mem_nil, or_false] at h
  rcases h with rfl | rfl | rfl | rfl | rfl <;> decide

mutual

/-- An element in its final form is written token by token. -/
theorem write_settle : ∀ e : Element (List Token), Inline e →
    (∀ t ∈ (texts e).flatten, t.IsFree) → (∀ t ∈ e.tail.getD [], t.IsFree) →
    (settle (e.map write)).write = written id Mark.ampersand Mark.raw e
  | ⟨tag, attrs, text, tail, children⟩, hi, hf, ht => by
    cases hi with
    | intro htag hattrs hcode himage hchildren =>
    dsimp only at htag hcode ht
    obtain ⟨htext, hinside⟩ := isFree_cons hf
    have hinner := writeAll_settleAll children hchildren hinside
    obtain ⟨hempty, hscript⟩ := tag_written htag
    have hshown : (if tag = "code" then text.map write
        else (text.map write).map settleText).getD [] = settled (text.getD []) := by
      split
      · next hc =>
        rw [← write_of_chars (text.getD []) (hcode hc)]
        cases text with
        | none => rfl
        | some tokens => rfl
      · exact settled_text text htext
    simp only [Element.map, settle, Element.write, written, hempty, hscript, hshown, hinner,
      settled_text tail ht, escape_settled, settledAttrs, id_eq, Bool.false_eq_true, if_false,
      decide_eq_true_eq]

theorem writeAll_settleAll : ∀ es : List (Element (List Token)), (∀ e ∈ es, Inline e) →
    (∀ t ∈ (textsAll es).flatten, t.IsFree) →
    writeAll (settleAll (mapAll write es)) = writtenAll id Mark.ampersand Mark.raw es
  | [], _, _ => rfl
  | e :: es, hi, hf => by
    obtain ⟨hfirst, hothers⟩ := List.forall_mem_cons.mp hi
    obtain ⟨hown, hrest⟩ := isFree_append hf
    obtain ⟨htail, hmore⟩ := isFree_cons hrest
    rw [mapAll, settleAll, writeAll, writtenAll, write_settle e hfirst hown htail,
      writeAll_settleAll es hothers hmore]

end

/-! ### Tags on the page -/

/-- What stands in a start tag behind its first character: no marks but those of ampersands, and no
bracket. -/
def IsTagText (cs : Text) : Prop :=
  Mark.OnlyAmpersands cs ∧ '<' ∉ cs

instance (cs : Text) : Decidable (IsTagText cs) :=
  inferInstanceAs (Decidable (Mark.OnlyAmpersands cs ∧ '<' ∉ cs))

theorem tag_name {tag : String} (h : tag ∈ inlineTags) :
    ∃ c cs, tag.toList = c :: cs ∧ c ≠ 'p' ∧ c.isAlpha = true ∧ Html.IsName cs ∧
      Mark.opening ∉ c :: cs ∧ '<' ∉ c :: cs := by
  simp only [inlineTags, List.mem_cons, List.not_mem_nil, or_false] at h
  rcases h with rfl | rfl | rfl | rfl | rfl
  · exact ⟨'a', [], by decide, by decide, by decide, by decide, by decide, by decide⟩
  · exact ⟨'c', "ode".toList, by decide, by decide, by decide, by decide, by decide, by decide⟩
  · exact ⟨'e', ['m'], by decide, by decide, by decide, by decide, by decide, by decide⟩
  · exact ⟨'i', "mg".toList, by decide, by decide, by decide, by decide, by decide, by decide⟩
  · exact ⟨'s', "trong".toList, by decide, by decide, by decide, by decide, by decide, by decide⟩

theorem attr_name {name : String} (h : name ∈ documentAttrs) :
    Html.IsName name.toList ∧ Mark.opening ∉ name.toList ∧ '<' ∉ name.toList := by
  simp only [documentAttrs, List.mem_cons, List.not_mem_nil, or_false] at h
  rcases h with rfl | rfl | rfl | rfl | rfl <;> decide

theorem bracket_not_mem_value (cs : Text) : '<' ∉ Escape.value cs := by
  unfold Escape.value
  induction cs with
  | nil => exact List.not_mem_nil
  | cons d cs ih =>
    unfold Escape.characters
    dsimp only
    rw [List.mem_append, not_or]
    refine ⟨?_, ih⟩
    split
    · split <;> decide
    split
    · decide
    split
    · decide
    split
    · decide
    · next hl _ _ =>
      intro hm
      exact hl (List.mem_singleton.mp hm).symm

theorem opening_not_mem_valueImage {d : Char} (cs : Text) (h : d ≠ Mark.opening) :
    ∃ image, Mark.opening ∉ image ∧ Escape.value (d :: cs) = image ++ Escape.value cs := by
  unfold Escape.value
  rw [Escape.characters]
  refine ⟨_, ?_, rfl⟩
  split
  · split <;> decide
  split
  · decide
  split
  · decide
  split
  · decide
  · intro hm
    exact h (List.mem_singleton.mp hm).symm

/-- Values of attributes are written without new marks. -/
theorem onlyAmpersands_value (cs : Text) (h : Mark.OnlyAmpersands cs) :
    Mark.OnlyAmpersands (Escape.value cs) := by
  induction cs with
  | nil => trivial
  | cons d cs ih =>
    by_cases hd : d = Mark.opening
    · obtain ⟨more, rfl⟩ := List.head?_eq_some_iff.mp (h.1 hd)
      subst hd
      exact ⟨fun _ => rfl, ih h.2⟩
    · obtain ⟨image, himage, heq⟩ := opening_not_mem_valueImage cs hd
      rw [heq]
      exact (Mark.onlyAmpersands_of_not_mem himage).append (ih h.2)

theorem IsTagText.append {cs ds : Text} (h : IsTagText cs) (h' : IsTagText ds) :
    IsTagText (cs ++ ds) := by
  refine ⟨h.1.append h'.1, ?_⟩
  rw [List.mem_append, not_or]
  exact ⟨h.2, h'.2⟩

theorem isTagText_of_not_mem {cs : Text} (h : Mark.opening ∉ cs ∧ '<' ∉ cs) : IsTagText cs :=
  ⟨Mark.onlyAmpersands_of_not_mem h.1, h.2⟩

theorem isTagText_writeAttrs (attrs : List (String × Text))
    (h : ∀ a ∈ attrs, a.1 ∈ documentAttrs ∧ Mark.OnlyAmpersands a.2) :
    IsTagText (writeAttrs attrs) := by
  have hsorted : ∀ a ∈ sortedAttrs attrs, a.1 ∈ documentAttrs ∧ Mark.OnlyAmpersands a.2 :=
    fun a ha => h a (Html.mem_sortedAttrs a attrs ha)
  unfold writeAttrs
  generalize sortedAttrs attrs = sorted at hsorted
  induction sorted with
  | nil => exact ⟨trivial, List.not_mem_nil⟩
  | cons a sorted ih =>
    obtain ⟨⟨hname, hvalue⟩, hothers⟩ := List.forall_mem_cons.mp hsorted
    have hblank : IsTagText [' '] := by decide
    have hquote : IsTagText ['=', '"'] := by decide
    have hclose : IsTagText ['"'] := by decide
    have hfirst := ((hblank.append (isTagText_of_not_mem (attr_name hname).2)).append
      hquote).append (IsTagText.append ⟨onlyAmpersands_value a.2 hvalue, bracket_not_mem_value a.2⟩
        hclose)
    have hall := hfirst.append (ih hothers)
    simpa only [List.flatMap_cons, List.append_assoc, List.cons_append, List.nil_append] using hall

variable {stash : Stash}

variable (stash) in
/-- Tags hold no stored markup. -/
theorem within_tag (depth : Nat) (c : Char) (cs rest : Text) (hc : c ≠ 'p')
    (h : IsTagText (c :: cs)) :
    Restore.within stash (depth + 1) ('<' :: (c :: cs ++ rest)) =
      '<' :: (c :: cs ++ Restore.within stash (depth + 1) rest) := by
  rw [← Restore.within_append depth (c :: cs) rest h.1 h.2]
  exact Restore.within_bracket depth c (cs ++ rest) hc

theorem isTagText_settledAttrs {attrs : List (String × Text)}
    (h : ∀ a ∈ attrs, a.1 ∈ documentAttrs ∧ Mark.OnlyAmpersands (settleText a.2)) :
    IsTagText (writeAttrs (settledAttrs attrs)) := by
  apply isTagText_writeAttrs
  intro a ha
  obtain ⟨b, hb, rfl⟩ := List.mem_map.mp ha
  exact h b hb

/-- Whether the stored markup of all texts shows a reader what the anchor takes from it. -/
def AllClear (stash : Stash) (texts : List (List Token)) : Prop :=
  ∀ index, .raw index ∈ texts.flatten → stash.IsClear index

theorem AllClear.append {texts more : List (List Token)} (h : AllClear stash (texts ++ more)) :
    AllClear stash texts ∧ AllClear stash more := by
  unfold AllClear at h
  rw [List.flatten_append] at h
  exact ⟨fun index hm => h index (List.mem_append_left _ hm),
    fun index hm => h index (List.mem_append_right _ hm)⟩

theorem AllClear.cons {tokens : List Token} {more : List (List Token)}
    (h : AllClear stash (tokens :: more)) :
    (∀ index, .raw index ∈ tokens → stash.IsClear index) ∧ AllClear stash more := by
  unfold AllClear at h
  rw [List.flatten_cons] at h
  exact ⟨fun index hm => h index (List.mem_append_left _ hm),
    fun index hm => h index (List.mem_append_right _ hm)⟩

mutual

/-- Stored markup is put back in the texts of an element. -/
theorem within_written (depth : Nat) : ∀ (e : Element (List Token)) (rest : Text), Inline e →
    (∀ t ∈ (texts e).flatten, t.IsFree) → (∀ t ∈ e.tail.getD [], t.IsFree) →
    AllClear stash (texts e) → (∀ index, .raw index ∈ e.tail.getD [] → stash.IsClear index) →
    Restore.within stash (depth + 1) (written id Mark.ampersand Mark.raw e ++ rest) =
      written id Mark.ampersand stash.markup e ++ Restore.within stash (depth + 1) rest
  | ⟨tag, attrs, text, tail, children⟩, rest, hi, hf, ht, hc, hct => by
    cases hi with
    | intro htag hattrs hcode himage hchildren =>
    dsimp only at htag ht hct
    obtain ⟨htext, hinside⟩ := isFree_cons hf
    obtain ⟨hctext, hcinside⟩ := hc.cons
    obtain ⟨c, cs, hname, hp, -, -, hplain⟩ := tag_name htag
    have htagtext := isTagText_of_not_mem hplain
    have hstart := htagtext.append (isTagText_settledAttrs hattrs)
    have hend (more : Text) : Restore.within stash (depth + 1)
        ('<' :: '/' :: (tag.toList ++ '>' :: more)) =
        '<' :: '/' :: (tag.toList ++ '>' :: Restore.within stash (depth + 1) more) := by
      have hslash : IsTagText ('/' :: (tag.toList ++ ['>'])) := by
        rw [hname]
        exact IsTagText.append (by decide : IsTagText ['/'])
          (htagtext.append (by decide : IsTagText ['>']))
      have h := within_tag stash depth '/' (tag.toList ++ ['>']) more (by decide) hslash
      simpa only [List.cons_append, List.append_assoc, List.nil_append] using h
    have hopen (last more : Text) (hlast : IsTagText last) : Restore.within stash (depth + 1)
        ('<' :: (tag.toList ++ writeAttrs (settledAttrs attrs) ++ (last ++ more))) =
        '<' :: (tag.toList ++ writeAttrs (settledAttrs attrs) ++
          (last ++ Restore.within stash (depth + 1) more)) := by
      have h := within_tag stash depth c (cs ++ writeAttrs (settledAttrs attrs) ++ last)
        more hp (by simpa only [List.cons_append] using hstart.append hlast)
      simpa only [hname, List.cons_append, List.append_assoc, List.nil_append] using h
    have htailpage := within_page depth (tail.getD []) rest ht hct
    simp only [written, id_eq]
    by_cases himg : tag = "img"
    · have h := hopen " />".toList (page Mark.ampersand Mark.raw (tail.getD []) ++ rest) (by decide)
      rw [htailpage] at h
      simpa only [if_pos himg, List.cons_append, List.append_assoc] using h
    · have hafter := hend (page Mark.ampersand Mark.raw (tail.getD []) ++ rest)
      rw [htailpage] at hafter
      have hinner := within_writtenAll depth children
        ('<' :: '/' :: (tag.toList ++ '>' :: (page Mark.ampersand Mark.raw (tail.getD []) ++ rest)))
        hchildren hinside hcinside
      rw [hafter] at hinner
      have htextpage := within_page depth (text.getD [])
        (writtenAll id Mark.ampersand Mark.raw children ++
          '<' :: '/' :: (tag.toList ++ '>' :: (page Mark.ampersand Mark.raw (tail.getD []) ++ rest)))
        htext hctext
      rw [hinner] at htextpage
      have h := hopen ['>'] (page Mark.ampersand Mark.raw (text.getD []) ++
        (writtenAll id Mark.ampersand Mark.raw children ++ '<' :: '/' :: (tag.toList ++ '>' ::
          (page Mark.ampersand Mark.raw (tail.getD []) ++ rest)))) (by decide)
      rw [htextpage] at h
      simpa only [if_neg himg, List.cons_append, List.append_assoc, List.nil_append] using h

theorem within_writtenAll (depth : Nat) : ∀ (es : List (Element (List Token))) (rest : Text),
    (∀ e ∈ es, Inline e) → (∀ t ∈ (textsAll es).flatten, t.IsFree) →
    AllClear stash (textsAll es) →
    Restore.within stash (depth + 1) (writtenAll id Mark.ampersand Mark.raw es ++ rest) =
      writtenAll id Mark.ampersand stash.markup es ++ Restore.within stash (depth + 1) rest
  | [], _, _, _, _ => rfl
  | e :: es, rest, hi, hf, hc => by
    obtain ⟨hfirst, hothers⟩ := List.forall_mem_cons.mp hi
    obtain ⟨hown, hrest⟩ := isFree_append hf
    obtain ⟨htail, hmore⟩ := isFree_cons hrest
    obtain ⟨hcown, hcrest⟩ := hc.append
    obtain ⟨hctail, hcmore⟩ := hcrest.cons
    rw [writtenAll, writtenAll, List.append_assoc,
      within_written depth e _ hfirst hown htail hcown hctail,
      within_writtenAll depth es rest hothers hmore hcmore, List.append_assoc]

end

end Token

end Changelog
