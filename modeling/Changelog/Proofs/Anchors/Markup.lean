import Changelog.Proofs.Anchors.Headings
import Changelog.Proofs.Anchors.ReadBack
import Changelog.Proofs.Anchors.Segments

/-!
# Markup in headings

Inline markup is stored, and its mark stands in the text of the heading.  A tag shows nothing there,
and neither does a comment in which another bracket follows every closing one.
`textOf_interspersed_iff` says that these are the comments for which that is so.
-/

namespace Changelog

open Text

/-! ### Marks put in -/

/-- A text with marks of stored markup put in between its characters. -/
inductive Text.Interspersed (indexes : Nat → Prop) : Text → Text → Prop
  | nil : Interspersed indexes [] []
  | keep {plain marked : Text} (c : Char) (rest : Interspersed indexes plain marked) :
      Interspersed indexes (c :: plain) (c :: marked)
  | mark {plain marked : Text} (index : Nat) (stored : indexes index)
      (rest : Interspersed indexes plain marked) :
      Interspersed indexes plain (Mark.raw index ++ marked)

/-- An element with marks put into its texts and into the texts of all that it holds. -/
inductive Element.Interspersed (indexes : Nat → Prop) : Tree → Tree → Prop
  | of {plain marked : Tree} (tag : marked.tag = plain.tag) (attrs : marked.attrs = plain.attrs)
      (text : Text.Interspersed indexes (plain.text.getD []) (marked.text.getD []))
      (tail : Text.Interspersed indexes (plain.tail.getD []) (marked.tail.getD []))
      (length : marked.children.length = plain.children.length)
      (children : ∀ (i : Nat) (a b : Tree), plain.children[i]? = some a →
        marked.children[i]? = some b → Interspersed indexes a b) : Interspersed indexes plain marked

variable {indexes : Nat → Prop}

theorem Text.Interspersed.refl (cs : Text) : Interspersed indexes cs cs := by
  induction cs with
  | nil => exact .nil
  | cons c cs ih => exact .keep c ih

theorem Text.Interspersed.append {cs cs' ds ds' : Text} (h : Interspersed indexes cs cs')
    (h' : Interspersed indexes ds ds') : Interspersed indexes (cs ++ ds) (cs' ++ ds') := by
  induction h with
  | nil => exact h'
  | keep c _ ih => exact .keep c ih
  | mark index stored _ ih =>
    rw [List.append_assoc]
    exact .mark index stored ih

namespace Element

theorem interspersed_innerTextAll (es fs : List Tree) (hlength : fs.length = es.length)
    (h : ∀ (i : Nat) (a b : Tree), es[i]? = some a → fs[i]? = some b →
      Text.Interspersed indexes a.innerText b.innerText ∧
        Text.Interspersed indexes (a.tail.getD []) (b.tail.getD [])) :
    Text.Interspersed indexes (innerTextAll es) (innerTextAll fs) := by
  induction es generalizing fs with
  | nil =>
    obtain rfl := List.length_eq_zero_iff.mp hlength
    exact .nil
  | cons e es ih =>
    cases fs with
    | nil => cases hlength
    | cons f fs =>
      obtain ⟨htext, htail⟩ := h 0 e f rfl rfl
      have hrest := ih fs (Nat.succ.inj hlength) fun i a b ha hb => h (i + 1) a b ha hb
      exact (htext.append htail).append hrest

theorem Interspersed.innerText {plain marked : Tree} (h : Interspersed indexes plain marked) :
    Text.Interspersed indexes plain.innerText marked.innerText ∧
      Text.Interspersed indexes (plain.tail.getD []) (marked.tail.getD []) := by
  induction h with
  | @of plain marked tag attrs text tail length children ih =>
    have hall := interspersed_innerTextAll _ _ length ih
    obtain ⟨_, _, _, _, _⟩ := plain
    obtain ⟨_, _, _, _, _⟩ := marked
    exact ⟨text.append hall, tail⟩

end Element

/-! ### Tags dropped -/

namespace Anchor

theorem readTag?_of_ne {c : Char} (cs : Text) (h : c ≠ '<') : readTag? (c :: cs) = none := by
  cases hread : readTag? (c :: cs) with
  | none => rfl
  | some r => exact absurd (List.cons.inj (Mark.readTag?_eq hread)).1 h

theorem reads_tag : Reads fun t => (readTag? t).map fun r => (([] : Text), r.2) := by
  intro cs value rest hr
  obtain ⟨r, hread, heq⟩ := Option.map_eq_some_iff.mp hr
  cases heq
  rw [Mark.readTag?_eq hread]
  simp only [List.length_cons, List.length_append]
  omega

theorem dropTags_keep {c : Char} {cs : Text} (h : readTag? (c :: cs) = none) :
    dropTags (c :: cs) = c :: dropTags cs :=
  replaceAll_keep c cs (by rw [h]; rfl)

theorem dropTags_tag {c : Char} (hc : c ≠ '>') {inside : Text} (hi : '>' ∉ inside) (rest : Text) :
    dropTags ('<' :: c :: (inside ++ '>' :: rest)) = dropTags rest := by
  have hspan : spanWhile (· != '>') (inside ++ '>' :: rest) = (inside, '>' :: rest) :=
    Entity.spanWhile_stop _ inside rest '>'
      (fun d hd => bne_iff_ne.mpr fun he => hi (he ▸ hd)) (by decide)
  have hread : readTag? ('<' :: c :: (inside ++ '>' :: rest)) = some (c :: inside, rest) := by
    rw [readTag?, if_neg hc, hspan]
  exact replaceAll_read reads_tag (by rw [hread]; rfl)

/-- Whether one more bracket, with a character inside it, follows each closing bracket of a text. -/
def Sealed (cs : Text) : Prop :=
  ∀ before after, cs = before ++ '>' :: after →
    ∃ c rest, after = '<' :: c :: rest ∧ c ≠ '>'

theorem sealed_nil : Sealed [] := by
  intro before after h
  cases before with
  | nil => cases h
  | cons c before => cases h

theorem sealed_cons (c : Char) (cs : Text) :
    Sealed (c :: cs) ↔ (c = '>' → ∃ d rest, cs = '<' :: d :: rest ∧ d ≠ '>') ∧ Sealed cs := by
  constructor
  · intro h
    refine ⟨fun hc => h [] cs (by rw [hc]; rfl), fun before after hcs => ?_⟩
    exact h (c :: before) after (by rw [hcs]; rfl)
  · rintro ⟨hfirst, hrest⟩ before after hcs
    cases before with
    | nil =>
      obtain ⟨hc, rfl⟩ := List.cons.inj hcs
      exact hfirst hc
    | cons d before => exact hrest before after (List.cons.inj hcs).2

theorem sealed_append {front : Text} (h : '>' ∉ front) (cs : Text) :
    Sealed (front ++ cs) ↔ Sealed cs := by
  induction front with
  | nil => exact Iff.rfl
  | cons c front ih =>
    rw [List.mem_cons, not_or] at h
    rw [List.cons_append, sealed_cons, ih h.2]
    exact ⟨And.right, fun hcs => ⟨fun hc => absurd hc.symm h.1, hcs⟩⟩

theorem sealed_of_not_mem {cs : Text} (h : '>' ∉ cs) : Sealed cs := by
  rw [← List.append_nil cs, sealed_append h]
  exact sealed_nil

/-- A closing bracket stays when no other one follows it with a character inside. -/
theorem dropTags_broken {cs : Text} (h : ¬∃ c rest, cs = '<' :: c :: rest ∧ c ≠ '>') :
    dropTags (cs ++ ['>']) ≠ [] := by
  have hkept {c : Char} {ds : Text} (hr : readTag? (c :: ds) = none) : dropTags (c :: ds) ≠ [] := by
    rw [dropTags_keep hr]
    exact List.cons_ne_nil _ _
  cases cs with
  | nil => exact hkept (readTag?_of_ne [] (by decide))
  | cons c cs =>
    by_cases hc : c = '<'
    · subst hc
      cases cs with
      | nil => exact hkept rfl
      | cons d ds =>
        by_cases hd : d = '>'
        · subst hd
          exact hkept rfl
        · exact absurd ⟨d, ds, rfl, hd⟩ h
    · exact hkept (readTag?_of_ne _ hc)

/-- Nothing is left of a text between brackets exactly when it is sealed. -/
theorem dropTags_eq_nil_iff {c : Char} (hc : c ≠ '>') (cs : Text) :
    dropTags ('<' :: c :: (cs ++ ['>'])) = [] ↔ Sealed cs := by
  -- The first closing bracket ends a tag; what follows is shorter, and must begin the next one.
  induction hn : cs.length using Nat.strongRecOn generalizing c cs with
  | ind n ih =>
    by_cases hmem : '>' ∈ cs
    · obtain ⟨inside, after, rfl, hi⟩ := List.eq_append_cons_of_mem hmem
      rw [List.append_assoc, List.cons_append, dropTags_tag hc hi, sealed_append hi, sealed_cons]
      by_cases hnext : ∃ d rest, after = '<' :: d :: rest ∧ d ≠ '>'
      · obtain ⟨d, rest, rfl, hd⟩ := hnext
        have hlt : rest.length < n := by
          rw [← hn, List.length_append, List.length_cons, List.length_cons, List.length_cons]
          omega
        have hfront : '>' ∉ ['<', d] := by
          rw [List.mem_cons, List.mem_singleton, not_or]
          exact ⟨by decide, hd.symm⟩
        have hrest : Sealed ('<' :: d :: rest) ↔ Sealed rest := sealed_append hfront rest
        rw [hrest, ← ih rest.length hlt hd rest rfl]
        exact ⟨fun h => ⟨fun _ => ⟨d, rest, rfl, hd⟩, h⟩, And.right⟩
      · exact iff_of_false (dropTags_broken hnext) fun h => hnext (h.1 rfl)
    · rw [dropTags_tag hc hmem]
      exact iff_of_true rfl (sealed_of_not_mem hmem)

end Anchor

/-! ### Stored markup -/

/-- A comment around a text. -/
def comment (body : Text) : Text :=
  "<!--".toList ++ body ++ "-->".toList

/-- Markup that is stored within a line: a tag without brackets inside it, or a comment around any
text that neither begins nor ends another one. -/
inductive InlineMarkup : Text → Prop
  | tag {inside : Text} (some : inside ≠ []) (opening : '<' ∉ inside) (closing : '>' ∉ inside) :
      InlineMarkup ('<' :: (inside ++ ['>']))
  | comment {body : Text} (opening : ¬"<!--".toList <:+: body) (closing : ¬"-->".toList <:+: body) :
      InlineMarkup (comment body)

namespace Anchor

theorem dropTags_comment_iff (body : Text) :
    dropTags (comment body) = [] ↔ Sealed (body ++ "--".toList) := by
  have hcomment : comment body = '<' :: '!' :: ("--".toList ++ (body ++ "--".toList) ++ ['>']) := by
    simp [comment]
  rw [hcomment, dropTags_eq_nil_iff (by decide), sealed_append (by decide)]

theorem dropTags_inline {markup : Text} (h : InlineMarkup markup)
    (hc : ∀ body, markup = comment body → Sealed (body ++ "--".toList)) : dropTags markup = [] := by
  cases h with
  | @tag inside hsome _ hclosing =>
    obtain ⟨c, cs, rfl⟩ := List.exists_cons_of_ne_nil hsome
    rw [List.mem_cons, not_or] at hclosing
    exact dropTags_tag (Ne.symm hclosing.1) hclosing.2 []
  | @comment body _ _ => exact (dropTags_comment_iff body).mpr (hc body rfl)

variable {stash : Stash}

theorem resolveRaw_raw {index : Nat} {markup : Text} (hi : (decimal index).length ≤ digitLimit)
    (h : stash.entries[index]? = some markup) (rest : Text) :
    resolveRaw stash (Mark.raw index ++ rest) =
      (resolveRaw stash rest).map (dropTags markup ++ ·) := by
  have hvalue : rawText stash (decimal index) = .ok (dropTags markup) :=
    rawText_stored (Mark.spells_decimal (fun _ hc => hc) hi).2.2 h
  have hread : (Mark.readRaw? (Mark.raw index ++ rest)).map
      (fun r => (rawText stash r.1, r.2)) = some (.ok (dropTags markup), rest) := by
    rw [Mark.readRaw?_raw, Option.map_some, hvalue]
  unfold resolveRaw
  rw [replaceAll?_read Token.reads_raw hread]
  rfl

/-- Marks of markup of which nothing is left are taken out. -/
theorem resolveRaw_interspersed {indexes : Nat → Prop}
    (hstored : ∀ i, indexes i → (decimal i).length ≤ digitLimit ∧
      ∃ markup, stash.entries[i]? = some markup ∧ dropTags markup = [])
    {plain marked : Text} (h : Text.Interspersed indexes plain marked)
    (hplain : Mark.opening ∉ plain) : resolveRaw stash marked = .ok plain := by
  induction h with
  | nil => rfl
  | @keep plain marked c _ ih =>
    rw [List.mem_cons, not_or] at hplain
    have hread : Mark.readRaw? (c :: marked) = none := Mark.readRaw?_of_ne marked (Ne.symm hplain.1)
    have hmarked := ih hplain.2
    unfold resolveRaw at hmarked ⊢
    rw [replaceAll?_keep c marked (by rw [hread]; rfl), hmarked]
    rfl
  | @mark plain marked index stored _ ih =>
    obtain ⟨hi, markup, hmarkup, hnothing⟩ := hstored index stored
    rw [resolveRaw_raw hi hmarkup, ih hplain, hnothing]
    rfl

theorem textOf_interspersed {indexes : Nat → Prop}
    (hstored : ∀ i, indexes i → (decimal i).length ≤ digitLimit ∧
      ∃ markup, stash.entries[i]? = some markup ∧ dropTags markup = [])
    {plain marked : Tree} (h : Element.Interspersed indexes plain marked)
    (hplain : Mark.opening ∉ plain.innerText) : textOf stash marked = textOf stash plain := by
  rw [textOf, textOf, visible, visible, resolveRaw_interspersed hstored h.innerText.1 hplain,
    resolveRaw_interspersed hstored (Text.Interspersed.refl _) hplain]

/-! ### Markup that shows -/

theorem visible_raw {index : Nat} {markup : Text} (hi : (decimal index).length ≤ digitLimit)
    (h : stash.entries[index]? = some markup) {front back : Text} (hf : Mark.opening ∉ front)
    (hb : Mark.opening ∉ back) :
    visible stash (front ++ Mark.raw index ++ back) =
      (Mark.unescape (front ++ (dropTags markup ++ back))).bind Entity.decode := by
  have hback : resolveRaw stash back = .ok back :=
    @resolveRaw_interspersed stash (fun _ => False) (fun _ hi => hi.elim) back back
      (Text.Interspersed.refl back) hb
  rw [visible, List.append_assoc,
    Token.resolveRaw_append front _ (Mark.onlyAmpersands_of_not_mem hf), resolveRaw_raw hi h, hback]
  rfl

/-- The first character that a text shows does not depend on what follows the text, unless it might
begin a mark. -/
theorem unescape_first {cs shown : Text} (hcs : cs ≠ []) (h : Mark.unescape cs = .ok shown) :
    ∃ c more, shown = c :: more ∧ (c ≠ Mark.opening → ∀ back shown',
      Mark.unescape (cs ++ back) = .ok shown' → ∃ more', shown' = c :: more') := by
  obtain ⟨d, ds, rfl⟩ := List.exists_cons_of_ne_nil hcs
  unfold Mark.unescape at h ⊢
  cases hr : Mark.readEscaped? (d :: ds) with
  | none =>
    rw [replaceAll?_keep d ds (by rw [hr]; rfl)] at h
    obtain ⟨more, -, heq⟩ := map_ok h
    refine ⟨d, more, heq.symm, fun hd back shown' h' => ?_⟩
    have hkeep : Mark.readEscaped? (d :: (ds ++ back)) = none := Mark.readEscaped?_of_ne _ hd
    rw [List.cons_append, replaceAll?_keep d (ds ++ back) (by rw [hkeep]; rfl)] at h'
    obtain ⟨more', -, heq'⟩ := map_ok h'
    exact ⟨more', heq'.symm⟩
  | some r =>
    obtain ⟨digits, rest⟩ := r
    rw [replaceAll?_read Mark.reads_escaped (by rw [hr]; rfl)] at h
    cases hchar : Mark.escapedChar digits with
    | error e =>
      rw [hchar] at h
      cases h
    | ok c =>
      rw [hchar] at h
      obtain ⟨more, -, heq⟩ := map_ok h
      refine ⟨c, more, heq.symm, fun _ back shown' h' => ?_⟩
      have hread := Mark.readEscaped?_append hr back
      rw [replaceAll?_read Mark.reads_escaped (by rw [hread]; rfl), hchar] at h'
      obtain ⟨more', -, heq'⟩ := map_ok h'
      exact ⟨more', heq'.symm⟩

theorem eq_of_decode_nil {c : Char} {cs : Text} (h : Entity.decode (c :: cs) = .ok []) : c = '&' := by
  by_cases hc : c = '&'
  · exact hc
  · rw [Entity.decode_keep c cs hc] at h
    obtain ⟨_, -, heq⟩ := map_ok h
    cases heq

/-- A heading that holds one text. -/
def onlyText (cs : Text) : Tree :=
  ⟨"h2", [], some cs, none, []⟩

theorem innerText_onlyText (cs : Text) : (onlyText cs).innerText = cs :=
  List.append_nil cs

theorem interspersed_onlyText {indexes : Nat → Prop} {index : Nat} (h : indexes index)
    (front back : Text) : Element.Interspersed indexes (onlyText (front ++ back))
      (onlyText (front ++ Mark.raw index ++ back)) := by
  refine .of rfl rfl ?_ .nil rfl fun i a b ha => by cases ha
  rw [List.append_assoc]
  exact (Text.Interspersed.refl front).append (.mark index h (.refl back))

/-- Markup of which something is left changes the text of a heading: of an empty one, or of one that
it cuts in a reference. -/
theorem dropTags_eq_nil_of_unseen {index : Nat} {markup : Text}
    (hi : (decimal index).length ≤ digitLimit) (h : stash.entries[index]? = some markup)
    (hall : ∀ front back, Mark.opening ∉ front → Mark.opening ∉ back →
      textOf stash (onlyText (front ++ Mark.raw index ++ back)) =
        textOf stash (onlyText (front ++ back))) : dropTags markup = [] := by
  refine Classical.byContradiction fun hne => ?_
  -- In an empty heading only what is decoded to nothing goes unseen, and that begins with an
  -- ampersand; put into a reference, it shows there.
  have halone := hall [] [] List.not_mem_nil List.not_mem_nil
  have hcut := hall "&l".toList "t;".toList (by decide) (by decide)
  rw [textOf, textOf, innerText_onlyText, innerText_onlyText,
    visible_raw hi h (by decide) (by decide)] at halone hcut
  have hnothing : visible stash ([] ++ []) = .ok [] := rfl
  have hless : visible stash ("&l".toList ++ "t;".toList) = .ok ['<'] := by
    rw [visible_of_not_mem stash (by decide)]
    rfl
  rw [hnothing, List.nil_append, List.append_nil] at halone
  cases hshown : Mark.unescape (dropTags markup) with
  | error e =>
    rw [hshown] at halone
    cases halone
  | ok shown =>
    obtain ⟨c, more, rfl, hfirst⟩ := unescape_first hne hshown
    rw [hshown] at halone
    obtain rfl : c = '&' := eq_of_decode_nil halone
    rw [hless, Mark.unescape_append _ _ (by decide)] at hcut
    cases hback : Mark.unescape (dropTags markup ++ "t;".toList) with
    | error e =>
      rw [hback] at hcut
      cases hcut
    | ok shown' =>
      obtain ⟨more', rfl⟩ := hfirst (by decide) _ _ hback
      rw [hback] at hcut
      have hname : Entity.nameValue ['l'] false = "&l".toList := by decide +kernel
      have hread : Entity.readReference? ("&l".toList ++ '&' :: more') =
          some (.ok (Entity.nameValue ['l'] false), '&' :: more') := rfl
      have hdecode : Entity.decode ("&l".toList ++ '&' :: more') = .ok ['<'] := hcut
      rw [Entity.decode_read hread, hname] at hdecode
      obtain ⟨_, -, heq⟩ := map_ok hdecode
      cases heq

end Anchor

/-! ### Headings with markup -/

open Anchor

/-- The id of a styled heading is the anchor of its text. -/
theorem id_styleHeadingAt {stash : Stash} {tree heading : Tree} {a : Address} {text : Text}
    (ha : a ≠ []) (hat : tree.at? a = some heading) (htag : heading.tag = "h2")
    (htext : textOf stash heading = .ok text) :
    ((styleHeadingAt stash tree a).1.at? (a ++ [0])).bind (·.attr? "id") =
      some (ofText text) := by
  have hheading : headingTags.contains heading.tag = true := by
    rw [htag]
    decide
  have hbox : boxOf? heading.tag = some "mb-8" := by rw [htag]; rfl
  have hstyle : styleHeadingAt stash tree a = decorateAt stash tree a := by
    rw [decorateAt, hat]
    dsimp only
    rw [if_pos hheading, if_neg ha]
  have hrestyled := Element.restyled_eq_marked stash heading fun _ => ⟨text, htext⟩
  obtain ⟨text', htext', hid⟩ := Element.hasAnchor_restyled stash heading htag (by rw [hrestyled])
  obtain rfl : text = text' := Except.ok.inj (htext.symm.trans htext')
  rw [hrestyled] at hid
  rw [hstyle, decorateAt_eq stash tree heading a hat (fun h => absurd h ha), hrestyled, hbox]
  dsimp only
  rw [Element.at?_append, Element.at?_update, hat]
  exact hid

/-- Marks of inline markup, any number of them at any places in a heading, leave its text and its id
as they are without them, exactly when each comment among the markup is sealed. -/
theorem textOf_interspersed_iff (stash : Stash) (indexes : Nat → Prop)
    (hstored : ∀ i, indexes i → (decimal i).length ≤ digitLimit ∧
      ∃ markup, stash.entries[i]? = some markup ∧ InlineMarkup markup) :
    (∀ plain marked : Tree, Mark.opening ∉ plain.innerText →
      Element.Interspersed indexes plain marked →
        textOf stash marked = textOf stash plain ∧
          ∀ text tree a, textOf stash plain = .ok text → plain.tag = "h2" → a ≠ [] →
            tree.at? a = some marked →
              ((styleHeadingAt stash tree a).1.at? (a ++ [0])).bind (·.attr? "id") =
                some (ofText text)) ↔
      ∀ i body, indexes i → stash.entries[i]? = some (comment body) →
        Sealed (body ++ "--".toList) := by
  constructor
  · intro hall i body hindex hentry
    rw [← dropTags_comment_iff]
    refine dropTags_eq_nil_of_unseen (hstored i hindex).1 hentry fun front back hf hb => ?_
    refine (hall _ _ ?_ (interspersed_onlyText hindex front back)).1
    rw [innerText_onlyText, List.mem_append, not_or]
    exact ⟨hf, hb⟩
  · intro hsealed plain marked hplain h
    have hnothing : ∀ i, indexes i → (decimal i).length ≤ digitLimit ∧
        ∃ markup, stash.entries[i]? = some markup ∧ dropTags markup = [] := by
      intro i hindex
      obtain ⟨hi, markup, hentry, hinline⟩ := hstored i hindex
      refine ⟨hi, markup, hentry, dropTags_inline hinline ?_⟩
      rintro body rfl
      exact hsealed i body hindex hentry
    have htext := textOf_interspersed hnothing h hplain
    refine ⟨htext, fun text tree a hok htag ha hat => ?_⟩
    have hmarked : marked.tag = "h2" := by
      cases h with
      | of tag => exact tag.trans htag
    exact id_styleHeadingAt ha hat hmarked (htext.trans hok)

theorem comment_inj {body body' : Text} (h : comment body = comment body') : body = body' :=
  List.append_cancel_left (List.append_cancel_right h)

theorem inlineMarkup_comment {body : Text} (h : '-' ∉ body) : InlineMarkup (comment body) :=
  .comment (fun hi => h (hi.subset (by decide))) (fun hi => h (hi.subset (by decide)))

/-- A tag, and a comment with an opening bracket in it. -/
def boldStash : Stash :=
  Stash.ofList ["<b x=1>".toList, comment " a < b ".toList]

/-- A heading with its ampersand written as a reference that goes over the start of an element. -/
def splitHeading : Tree :=
  ⟨"h2", [], some "R&am".toList, none, [⟨"em", [], some "p;D".toList, none, []⟩]⟩

/-- The same with a tag in a word, and comments in the reference and behind the element. -/
def boldHeading : Tree :=
  ⟨"h2", [], some ("R".toList ++ Mark.raw 0 ++ "&am".toList ++ Mark.raw 1), none,
    [⟨"em", [], some "p;D".toList, some (Mark.raw 1), []⟩]⟩

theorem interspersed_boldHeading : Element.Interspersed (· < 2) splitHeading boldHeading := by
  have hem : Element.Interspersed (· < 2) ⟨"em", [], some "p;D".toList, none, []⟩
      ⟨"em", [], some "p;D".toList, some (Mark.raw 1), []⟩ :=
    .of rfl rfl (.refl _) (.mark 1 (by decide) .nil) rfl fun i a b ha => by cases ha
  refine .of rfl rfl ?_ .nil rfl ?_
  · exact .keep 'R' (.mark 0 (by decide) ((Text.Interspersed.refl "&am".toList).append
      (.mark 1 (by decide) .nil)))
  · intro i a b ha hb
    cases i with
    | zero =>
      cases ha
      cases hb
      exact hem
    | succ i => cases ha

/-- The reference is read over the comment in it. -/
theorem textOf_interspersed_iff_boldHeading :
    (∀ i, i < 2 → (decimal i).length ≤ digitLimit ∧
      ∃ markup, boldStash.entries[i]? = some markup ∧ InlineMarkup markup) ∧
      Element.Interspersed (· < 2) splitHeading boldHeading ∧
      textOf boldStash boldHeading = .ok "R&D".toList ∧
      ((styleHeadingAt boldStash ⟨"div", [], none, none, [boldHeading]⟩ [0]).1.at? [0, 0]).bind
        (·.attr? "id") = some "r-d".toList := by
  have hcases {i : Nat} (h : i < 2) : i = 0 ∨ i = 1 := by omega
  have hstored : ∀ i, i < 2 → (decimal i).length ≤ digitLimit ∧
      ∃ markup, boldStash.entries[i]? = some markup ∧ InlineMarkup markup := by
    intro i hi
    rcases hcases hi with rfl | rfl
    · exact ⟨by decide, _, rfl,
        @InlineMarkup.tag "b x=1".toList (by decide) (by decide) (by decide)⟩
    · exact ⟨by decide, _, rfl, @inlineMarkup_comment " a < b ".toList (by decide)⟩
  have hsealed : ∀ i body, i < 2 → boldStash.entries[i]? = some (comment body) →
      Sealed (body ++ "--".toList) := by
    intro i body hi hentry
    rcases hcases hi with rfl | rfl
    · have htag : "<b x=1>".toList = comment body := Option.some.inj hentry
      cases htag
    · have hbody : " a < b ".toList = body := comment_inj (Option.some.inj hentry)
      rw [← hbody]
      exact sealed_of_not_mem (by decide)
  have hall := (textOf_interspersed_iff boldStash (· < 2) hstored).mpr hsealed splitHeading
    boldHeading (by decide) interspersed_boldHeading
  have htext : textOf boldStash splitHeading = .ok "R&D".toList := by rfl
  exact ⟨hstored, interspersed_boldHeading, hall.1.trans htext,
    hall.2 _ ⟨"div", [], none, none, [boldHeading]⟩ [0] htext rfl (by decide) rfl⟩

/-- What stands behind a closing bracket in a comment is taken for text of the heading. -/
theorem textOf_comment_shows :
    InlineMarkup (comment " a > b ".toList) ∧
      Element.Interspersed (· < 1) (onlyText "AB".toList)
        (onlyText ("A".toList ++ Mark.raw 0 ++ "B".toList)) ∧
      textOf (Stash.ofList [comment " a > b ".toList])
        (onlyText ("A".toList ++ Mark.raw 0 ++ "B".toList)) = .ok "A b -->B".toList ∧
      textOf (Stash.ofList [comment " a > b ".toList]) (onlyText "AB".toList) =
        .ok "AB".toList :=
  ⟨inlineMarkup_comment (by decide), interspersed_onlyText (by decide) "A".toList "B".toList,
    by rfl, by rfl⟩

end Changelog
