import Changelog.Proofs.Anchors.Inline

/-!
# What a heading shows

A heading is legible when its texts are made of characters and marks, stored markup shows the reader
what the anchor takes from it, and no ampersand is read otherwise than it is written.  A reader of
the page then sees the text from which the anchor is made.
-/

namespace Changelog

open Text Element

namespace Token

variable {stash : Stash}

/-! ### Ampersands put back -/

/-- The values of attributes keep their places when ampersands are put back. -/
theorem ampersands_writeAttrs (attrs : List (String × Text))
    (h : ∀ a ∈ attrs, a.1 ∈ documentAttrs) :
    Restore.ampersands (writeAttrs attrs) = (sortedAttrs attrs).flatMap fun a =>
      ' ' :: (a.1.toList ++ '=' :: '"' :: (Restore.ampersands (Escape.value a.2) ++ ['"'])) := by
  have hsorted : ∀ a ∈ sortedAttrs attrs, a.1 ∈ documentAttrs :=
    fun a ha => h a (Html.mem_sortedAttrs a attrs ha)
  unfold writeAttrs
  generalize sortedAttrs attrs = sorted at hsorted
  induction sorted with
  | nil => rfl
  | cons a sorted ih =>
    obtain ⟨hname, hothers⟩ := List.forall_mem_cons.mp hsorted
    have hfront : Mark.opening ∉ ' ' :: (a.1.toList ++ ['=', '"']) := by
      rw [List.mem_cons, List.mem_append, not_or, not_or]
      exact ⟨by decide, (attr_name hname).2.1, by decide⟩
    have hvalue := Restore.ampersands_cons (Escape.value a.2) '"'
      (sorted.flatMap fun a => ' ' :: (a.1.toList ++ '=' :: '"' :: (Escape.value a.2 ++ ['"'])))
      (by decide)
    have hall := Restore.ampersands_append _ (Escape.value a.2 ++ '"' ::
      sorted.flatMap fun a => ' ' :: (a.1.toList ++ '=' :: '"' :: (Escape.value a.2 ++ ['"'])))
      hfront
    rw [hvalue, ih hothers] at hall
    simpa only [List.flatMap_cons, List.append_assoc, List.cons_append, List.nil_append] using hall

theorem tagEnd_shownAttrs (attrs : List (String × Text)) (rest : Text)
    (h : ∀ a ∈ attrs, a.1 ∈ documentAttrs) :
    Html.tagEnd .tag (Restore.ampersands (writeAttrs attrs) ++ rest) = Html.tagEnd .tag rest := by
  rw [ampersands_writeAttrs attrs h]
  apply Html.tagEnd_attrs (fun cs => Restore.ampersands (Escape.value cs))
  · exact fun cs => not_mem_replaceText (by decide) (by decide) _ (Html.quote_not_mem_value cs)
  · exact fun a ha => (attr_name (h a (Html.mem_sortedAttrs a attrs ha))).1

theorem mem_settledAttrs {attrs : List (String × Text)}
    (h : ∀ a ∈ attrs, a.1 ∈ documentAttrs ∧ Mark.OnlyAmpersands (settleText a.2)) :
    ∀ a ∈ settledAttrs attrs, a.1 ∈ documentAttrs := by
  intro a ha
  obtain ⟨b, hb, rfl⟩ := List.mem_map.mp ha
  exact (h b hb).1

mutual

theorem ampersands_written : ∀ (e : Element (List Token)) (rest : Text), Inline e →
    (∀ t ∈ (texts e).flatten, t.IsFree) → (∀ t ∈ e.tail.getD [], t.IsFree) →
    AllClear stash (texts e) → (∀ index, .raw index ∈ e.tail.getD [] → stash.IsClear index) →
    Restore.ampersands (written id Mark.ampersand stash.markup e ++ rest) =
      written Restore.ampersands ['&'] stash.markup e ++ Restore.ampersands rest
  | ⟨tag, attrs, text, tail, children⟩, rest, hi, hf, ht, hc, hct => by
    cases hi with
    | intro htag hattrs hcode himage hchildren =>
    dsimp only at htag ht hct
    obtain ⟨htext, hinside⟩ := isFree_cons hf
    obtain ⟨hctext, hcinside⟩ := hc.cons
    obtain ⟨c, cs, hname, -, -, -, hopening, -⟩ := tag_name htag
    rw [← hname] at hopening
    have hstart (d : Char) (more : Text) (hd : d ∉ Mark.ampersand) : Restore.ampersands
        ('<' :: (tag.toList ++ (writeAttrs (settledAttrs attrs) ++ d :: more))) =
        '<' :: (tag.toList ++ (Restore.ampersands (writeAttrs (settledAttrs attrs)) ++
          d :: Restore.ampersands more)) := by
      have hfront : Mark.opening ∉ '<' :: tag.toList := by
        rw [List.mem_cons, not_or]
        exact ⟨by decide, hopening⟩
      rw [← Restore.ampersands_cons _ d more hd]
      exact Restore.ampersands_append _ _ hfront
    have hend (more : Text) : Restore.ampersands ('<' :: '/' :: (tag.toList ++ '>' :: more)) =
        '<' :: '/' :: (tag.toList ++ '>' :: Restore.ampersands more) := by
      have hfront : Mark.opening ∉ '<' :: '/' :: (tag.toList ++ ['>']) := by
        rw [List.mem_cons, List.mem_cons, List.mem_append, not_or, not_or, not_or]
        exact ⟨by decide, by decide, hopening, by decide⟩
      have h := Restore.ampersands_append _ more hfront
      simpa only [List.cons_append, List.append_assoc, List.nil_append] using h
    have htailpage := ampersands_page (tail.getD []) rest ht hct
    simp only [written, id_eq]
    by_cases himg : tag = "img"
    · have hsplit : " />".toList = ' ' :: "/>".toList := rfl
      have hlast := Restore.ampersands_append "/>".toList
        (page Mark.ampersand stash.markup (tail.getD []) ++ rest) (by decide)
      have h := hstart ' ' ("/>".toList ++
        (page Mark.ampersand stash.markup (tail.getD []) ++ rest)) (by decide)
      rw [hlast, htailpage] at h
      simpa only [if_pos himg, hsplit, List.cons_append, List.append_assoc] using h
    · have hafter := hend (page Mark.ampersand stash.markup (tail.getD []) ++ rest)
      rw [htailpage] at hafter
      have hinner := ampersands_writtenAll children
        ('<' :: '/' :: (tag.toList ++ '>' ::
          (page Mark.ampersand stash.markup (tail.getD []) ++ rest))) hchildren hinside hcinside
      rw [hafter] at hinner
      have htextpage := ampersands_page (text.getD [])
        (writtenAll id Mark.ampersand stash.markup children ++ '<' :: '/' :: (tag.toList ++ '>' ::
          (page Mark.ampersand stash.markup (tail.getD []) ++ rest))) htext hctext
      rw [hinner] at htextpage
      have h := hstart '>' (page Mark.ampersand stash.markup (text.getD []) ++
        (writtenAll id Mark.ampersand stash.markup children ++ '<' :: '/' :: (tag.toList ++ '>' ::
          (page Mark.ampersand stash.markup (tail.getD []) ++ rest)))) (by decide)
      rw [htextpage] at h
      simpa only [if_neg himg, List.cons_append, List.append_assoc, List.nil_append] using h

theorem ampersands_writtenAll : ∀ (es : List (Element (List Token))) (rest : Text),
    (∀ e ∈ es, Inline e) → (∀ t ∈ (textsAll es).flatten, t.IsFree) →
    AllClear stash (textsAll es) →
    Restore.ampersands (writtenAll id Mark.ampersand stash.markup es ++ rest) =
      writtenAll Restore.ampersands ['&'] stash.markup es ++ Restore.ampersands rest
  | [], _, _, _, _ => rfl
  | e :: es, rest, hi, hf, hc => by
    obtain ⟨hfirst, hothers⟩ := List.forall_mem_cons.mp hi
    obtain ⟨hown, hrest⟩ := isFree_append hf
    obtain ⟨htail, hmore⟩ := isFree_cons hrest
    obtain ⟨hcown, hcrest⟩ := hc.append
    obtain ⟨hctail, hcmore⟩ := hcrest.cons
    rw [writtenAll, writtenAll, List.append_assoc,
      ampersands_written e _ hfirst hown htail hcown hctail,
      ampersands_writtenAll es rest hothers hmore hcmore, List.append_assoc]

end

/-! ### Tags skipped -/

mutual

/-- A reader who skips tags is left with the texts of an element. -/
theorem strip_written : ∀ (e : Element (List Token)) (rest : Text), Inline e →
    AllClear stash (texts e) → (∀ index, .raw index ∈ e.tail.getD [] → stash.IsClear index) →
    Html.strip (written Restore.ampersands ['&'] stash.markup e ++ rest) =
      (texts e).flatMap (page ['&'] stash.remains) ++
        (page ['&'] stash.remains (e.tail.getD []) ++ Html.strip rest)
  | ⟨tag, attrs, text, tail, children⟩, rest, hi, hc, hct => by
    cases hi with
    | intro htag hattrs hcode himage hchildren =>
    dsimp only at htag himage hct
    obtain ⟨hctext, hcinside⟩ := hc.cons
    obtain ⟨c, cs, hname, -, halpha, hisname, -⟩ := tag_name htag
    have htail := strip_page (tail.getD []) rest hct
    have hopen (last more : Text) (hlast : Html.tagEnd .tag (last ++ more) = more) :
        Html.strip ('<' :: (tag.toList ++
          (Restore.ampersands (writeAttrs (settledAttrs attrs)) ++ (last ++ more)))) =
          Html.strip more := by
      apply Html.strip_skip
      rw [hname, List.cons_append, Html.skip?_tag _ halpha, Html.tagEnd_name _ _ hisname,
        tagEnd_shownAttrs _ _ (mem_settledAttrs hattrs), hlast]
    have hend (more : Text) :
        Html.strip ('<' :: '/' :: (tag.toList ++ '>' :: more)) = Html.strip more := by
      apply Html.strip_skip
      rw [hname, List.cons_append, Html.skip?_end _ halpha, Html.tagEnd_name _ _ hisname]
      rfl
    simp only [written]
    by_cases himg : tag = "img"
    · obtain ⟨rfl, rfl⟩ := himage himg
      have h := hopen " />".toList (page ['&'] stash.markup (tail.getD []) ++ rest) rfl
      rw [htail] at h
      simpa only [if_pos himg, texts, textsAll, Option.getD_none, List.flatMap_cons,
        List.flatMap_nil, page, List.cons_append, List.append_assoc, List.nil_append] using h
    · have hclose := hend (page ['&'] stash.markup (tail.getD []) ++ rest)
      rw [htail] at hclose
      have hinner := strip_writtenAll children
        ('<' :: '/' :: (tag.toList ++ '>' :: (page ['&'] stash.markup (tail.getD []) ++ rest)))
        hchildren hcinside
      rw [hclose] at hinner
      have htextpage := strip_page (text.getD [])
        (writtenAll Restore.ampersands ['&'] stash.markup children ++
          '<' :: '/' :: (tag.toList ++ '>' :: (page ['&'] stash.markup (tail.getD []) ++ rest)))
        hctext
      rw [hinner] at htextpage
      have h := hopen ['>'] (page ['&'] stash.markup (text.getD []) ++
        (writtenAll Restore.ampersands ['&'] stash.markup children ++
          '<' :: '/' :: (tag.toList ++ '>' :: (page ['&'] stash.markup (tail.getD []) ++ rest)))) rfl
      rw [htextpage] at h
      simpa only [if_neg himg, texts, List.flatMap_cons, List.cons_append, List.append_assoc,
        List.nil_append] using h

theorem strip_writtenAll : ∀ (es : List (Element (List Token))) (rest : Text),
    (∀ e ∈ es, Inline e) → AllClear stash (textsAll es) →
    Html.strip (writtenAll Restore.ampersands ['&'] stash.markup es ++ rest) =
      (textsAll es).flatMap (page ['&'] stash.remains) ++ Html.strip rest
  | [], _, _, _ => rfl
  | e :: es, rest, hi, hc => by
    obtain ⟨hfirst, hothers⟩ := List.forall_mem_cons.mp hi
    obtain ⟨hcown, hcrest⟩ := hc.append
    obtain ⟨hctail, hcmore⟩ := hcrest.cons
    rw [writtenAll, List.append_assoc, strip_written e _ hfirst hcown hctail,
      strip_writtenAll es rest hothers hcmore, textsAll, List.flatMap_append, List.flatMap_cons,
      List.append_assoc, List.append_assoc]

end

end Token

/-- A heading whose text is read token by token. -/
structure Legible (stash : Stash) (heading : Element (List Token)) : Prop where
  /-- Elements inside are links, code, emphasis and images. -/
  inline : ∀ child ∈ heading.children, Token.Inline child
  /-- No character begins a mark. -/
  free : ∀ t ∈ (Token.texts heading).flatten, t.IsFree
  /-- Stored markup shows a reader what the anchor takes from it. -/
  clear : Token.AllClear stash (Token.texts heading)
  /-- Ampersands are read as they are written. -/
  calm : Token.AllCalm stash (Token.texts heading)

/-- The inside of an element as it stands on the page. -/
def insideOf (stash : Stash) (e : Tree) : Text :=
  Restore.page stash (Escape.text (e.text.getD []) ++ writeAll e.children)

namespace Legible

variable {stash : Stash} {heading : Element (List Token)}

/-- The anchor of a legible heading is made from what its tokens hold. -/
theorem decode_taken (h : Legible stash heading) {text : Text}
    (ht : Anchor.textOf stash (heading.map Token.write) = .ok text) :
    Entity.decode (Token.taken stash (Token.texts heading).flatten) = .ok text := by
  unfold Anchor.textOf at ht
  rw [Token.innerText_map] at ht
  exact Token.decode_taken _ h.free (fun index hm => (h.clear index hm).lt_length)
    (fun index hm => (h.clear index hm).opening_not_mem_remains) text ht

/-- A reader of the page sees the tokens of a legible heading. -/
theorem shown_eq (h : Legible stash heading) (final : Tree)
    (hown : final.text = (heading.text.map Token.write).map settleText)
    (hchildren : final.children = settleAll (mapAll Token.write heading.children)) :
    Html.shown (insideOf stash final) =
      Entity.decode ((Token.texts heading).flatMap (Token.page ['&'] stash.remains)) := by
  obtain ⟨tag, attrs, own, tail, children⟩ := heading
  obtain ⟨hinline, hfree, hclear, -⟩ := h
  dsimp only at hown hchildren hinline
  obtain ⟨hfreeOwn, hfreeInside⟩ := Token.isFree_cons hfree
  obtain ⟨hclearOwn, hclearInside⟩ := hclear.cons
  have hescaped : Escape.text (final.text.getD []) =
      Token.page Mark.ampersand Mark.raw (own.getD []) := by
    rw [hown, Token.settled_text own hfreeOwn, Token.escape_settled]
  have hwritten : writeAll final.children =
      Token.writtenAll id Mark.ampersand Mark.raw children := by
    rw [hchildren, Token.writeAll_settleAll children hinline hfreeInside]
  have hrestored : Restore.within stash (stash.entries.length + 1)
      (Token.page Mark.ampersand Mark.raw (own.getD []) ++
        Token.writtenAll id Mark.ampersand Mark.raw children) =
      Token.page Mark.ampersand stash.markup (own.getD []) ++
        Token.writtenAll id Mark.ampersand stash.markup children := by
    have hinner := Token.within_writtenAll stash.entries.length children [] hinline hfreeInside
      hclearInside
    rw [List.append_nil] at hinner
    rw [Token.within_page _ (own.getD []) _ hfreeOwn hclearOwn, hinner]
    exact congrArg (Token.page Mark.ampersand stash.markup (own.getD []) ++ ·) (List.append_nil _)
  have hampersands : Restore.ampersands (Token.page Mark.ampersand stash.markup (own.getD []) ++
        Token.writtenAll id Mark.ampersand stash.markup children) =
      Token.page ['&'] stash.markup (own.getD []) ++
        Token.writtenAll Restore.ampersands ['&'] stash.markup children := by
    have hinner := Token.ampersands_writtenAll children [] hinline hfreeInside hclearInside
    rw [List.append_nil] at hinner
    rw [Token.ampersands_page _ _ hfreeOwn hclearOwn, hinner]
    exact congrArg (Token.page ['&'] stash.markup (own.getD []) ++ ·) (List.append_nil _)
  have hstripped : Html.strip (Token.page ['&'] stash.markup (own.getD []) ++
        Token.writtenAll Restore.ampersands ['&'] stash.markup children) =
      (Token.texts ⟨tag, attrs, own, tail, children⟩).flatMap
        (Token.page ['&'] stash.remains) := by
    have hinner := Token.strip_writtenAll children [] hinline hclearInside
    rw [List.append_nil] at hinner
    rw [Token.strip_page _ _ hclearOwn, hinner, Token.texts, List.flatMap_cons]
    exact congrArg (Token.page ['&'] stash.remains (own.getD []) ++ ·) (List.append_nil _)
  unfold Html.shown insideOf Restore.page
  rw [hescaped, hwritten, hrestored]
  show Entity.decode (Html.strip (Restore.ampersands _)) = _
  rw [hampersands, hstripped]

/-- A reader of the page sees the text from which the anchor of a legible heading is made, but for
the characters of mail addresses. -/
theorem reveals (h : Legible stash heading) {text : Text}
    (ht : Anchor.textOf stash (heading.map Token.write) = .ok text) (final : Tree)
    (hown : final.text = (heading.text.map Token.write).map settleText)
    (hchildren : final.children = settleAll (mapAll Token.write heading.children)) :
    Reveals (Token.disguises (Token.texts heading).flatten) (.ok text)
      (Html.shown (insideOf stash final)) := by
  rw [h.shown_eq final hown hchildren, ← h.decode_taken ht]
  exact Token.decode_pages _ h.clear h.calm

end Legible

end Changelog
