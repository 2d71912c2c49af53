import Changelog.Proofs.Anchors.Headings
import Changelog.Proofs.Anchors.Shown

/-!
# Anchors and what a reader sees

The anchor of a legible heading is made from the text that a reader of the page sees in it, unless a
mail address in angle brackets stands there.  The ampersands of such an address are marks that only
the last stage resolves, and the anchor is made from the letters of the marks.
-/

namespace Changelog

open Text Element

namespace Element

/-! ### Trees compared -/

variable {τ : Type} [DecidableEq τ]

mutual

def decideEq : (e f : Element τ) → Decidable (e = f)
  | ⟨tag, attrs, text, tail, children⟩, ⟨tag', attrs', text', tail', children'⟩ =>
    have := decideEqAll children children'
    decidable_of_iff (tag = tag' ∧ attrs = attrs' ∧ text = text' ∧ tail = tail' ∧
      children = children') (by rw [mk.injEq])

def decideEqAll : (es fs : List (Element τ)) → Decidable (es = fs)
  | [], [] => isTrue rfl
  | [], _ :: _ => isFalse (List.cons_ne_nil _ _).symm
  | _ :: _, [] => isFalse (List.cons_ne_nil _ _)
  | e :: es, f :: fs =>
    have := decideEq e f
    have := decideEqAll es fs
    decidable_of_iff (e = f ∧ es = fs) (by rw [List.cons.injEq])

end

instance : DecidableEq (Element τ) := decideEq

end Element

namespace Token

theorem disguises_eq_zero (tokens : List Token) :
    disguises tokens = 0 ↔ ∀ c, .disguised c ∉ tokens := by
  unfold disguises
  rw [List.countP_eq_zero]
  constructor
  · exact fun h c hm => h _ hm rfl
  · intro h t hm ht
    cases t with
    | disguised c => exact h c hm
    | char c => cases ht
    | escaped c => cases ht
    | raw index => cases ht

/-! ### Headings in finished trees -/

/-- Elements of running text stand on no lines of their own, and need no line ends. -/
theorem tag_laid {tag : String} (h : tag ∈ inlineTags) :
    isBlockTag tag.toList = false ∧ tag ≠ "br" ∧ (tag == "pre") = false := by
  simp only [inlineTags, List.mem_cons, List.not_mem_nil, or_false] at h
  rcases h with rfl | rfl | rfl | rfl | rfl <;> decide

theorem map_tag {τ σ : Type} (f : τ → σ) (e : Element τ) : (e.map f).tag = e.tag := by
  obtain ⟨tag, attrs, text, tail, children⟩ := e
  rfl

theorem breakChild_inline {e : Element (List Token)} (h : Inline e) :
    breakChild (e.map write) = e.map write := by
  cases h with
  | intro htag hattrs hcode himage hchildren =>
  have hblock : isBlock (e.map write) = false := by
    rw [isBlock, map_tag]
    exact (tag_laid htag).1
  rw [breakChild, hblock]
  rfl

mutual

theorem tidy_inline : ∀ e : Element (List Token), Inline e → tidy (e.map write) = e.map write
  | ⟨tag, attrs, text, tail, children⟩, h => by
    cases h with
    | intro htag hattrs hcode himage hchildren =>
    obtain ⟨-, hbr, hpre⟩ := tag_laid htag
    have hinner := tidyCode_inline tag hpre children hchildren
    rw [Element.map, tidy, hinner]
    show Element.mk tag attrs (text.map write) (breakAfter tag (tail.map write)) _ = _
    rw [breakAfter, if_neg hbr]

theorem tidyCode_inline (tag : String) (hpre : (tag == "pre") = false) :
    ∀ es : List (Element (List Token)), (∀ e ∈ es, Inline e) →
      tidyCode tag (mapAll write es) = mapAll write es
  | [], _ => rfl
  | e :: es, h => by
    obtain ⟨hfirst, hothers⟩ := List.forall_mem_cons.mp h
    have hown := tidy_inline e hfirst
    have hrest := tidyAll_inline es hothers
    rw [mapAll, tidyCode_cons, tidyFirst, hpre, hown, hrest]
    rfl

theorem tidyAll_inline : ∀ es : List (Element (List Token)), (∀ e ∈ es, Inline e) →
    tidyAll (mapAll write es) = mapAll write es
  | [], _ => rfl
  | e :: es, h => by
    obtain ⟨hfirst, hothers⟩ := List.forall_mem_cons.mp h
    rw [mapAll, tidyAll, tidy_inline e hfirst, tidyAll_inline es hothers]

end

end Token

/-- A heading with running text in it stays at its address when a tree is finished; its texts and
its attributes are settled. -/
theorem at?_finalTree (tree : Tree) (heading : Element (List Token)) (a : Address)
    (h : tree.at? a = some (heading.map Token.write)) (htag : heading.tag = "h2")
    (hi : ∀ child ∈ heading.children, Token.Inline child) :
    ∃ e, (Parser.finalTree tree).at? a = some e ∧ e.tag = "h2" ∧
      e.attr? "id" = ((heading.map Token.write).attr? "id").map settleText ∧
      e.text = (heading.text.map Token.write).map settleText ∧
      e.children = settleAll (mapAll Token.write heading.children) := by
  obtain ⟨tag, attrs, text, tail, children⟩ := heading
  dsimp only at htag hi
  subst htag
  have hstart : startsWithBlock (mapAll Token.write children) = false := by
    cases children with
    | nil => rfl
    | cons c cs =>
      cases hi c List.mem_cons_self with
      | intro hc hattrs hcode himage hchildren =>
      rw [mapAll, startsWithBlock, isBlock, Token.map_tag]
      exact (Token.tag_laid hc).1
  have hinner : breakLinesAll (mapAll Token.write children) = mapAll Token.write children := by
    rw [breakLinesAll_eq_map, mapAll_eq_map, List.map_map]
    exact List.map_congr_left fun c hc => Token.breakChild_inline (hi c hc)
  have hlines : breakLines (Element.map Token.write ⟨"h2", attrs, text, tail, children⟩) =
      ⟨"h2", attrs, text.map Token.write, breakBlank (tail.map Token.write),
        mapAll Token.write children⟩ := by
    rw [Element.map, breakLines, hstart, hinner, Bool.and_false]
    rfl
  have htidy (after : Option Text) :
      tidy ⟨"h2", attrs, text.map Token.write, after, mapAll Token.write children⟩ =
        ⟨"h2", attrs, text.map Token.write, after, mapAll Token.write children⟩ := by
    rw [tidy, Token.tidyCode_inline "h2" (by decide) children hi]
    rfl
  have hfound : ∃ after, (tree.layout).at? a =
      some ⟨"h2", attrs, text.map Token.write, after, mapAll Token.write children⟩ := by
    have hplain : "h2" ≠ "code" := by decide
    rcases at?_breakLines tree _ a h with hsame | hbroken
    · obtain ⟨y, hy, -, hty⟩ := at?_tidy _ _ a hsame
      exact ⟨tail.map Token.write, by rw [layout, hy, hty hplain, Element.map, htidy]⟩
    · rw [hlines] at hbroken
      obtain ⟨y, hy, -, hty⟩ := at?_tidy _ _ a hbroken
      exact ⟨breakBlank (tail.map Token.write), by rw [layout, hy, hty hplain, htidy]⟩
  obtain ⟨after, hat⟩ := hfound
  refine ⟨settle ⟨"h2", attrs, text.map Token.write, after, mapAll Token.write children⟩, ?_, rfl,
    attr?_settle _ "id", rfl, rfl⟩
  rw [Parser.finalTree, at?_settle, hat, Option.map_some]

/-- Finishing a tree changes no tag. -/
theorem tag_finalTree (tree x e : Tree) (a : Address) (hx : tree.at? a = some x)
    (he : (Parser.finalTree tree).at? a = some e) : e.tag = x.tag := by
  have hlines : ∃ y, (breakLines tree).at? a = some y ∧ y.tag = x.tag := by
    rcases at?_breakLines tree x a hx with hsame | hbroken
    · exact ⟨x, hsame, rfl⟩
    · exact ⟨breakLines x, hbroken, breakLines_tag x⟩
  obtain ⟨y, hy, hyx⟩ := hlines
  obtain ⟨z, hz, hzy, -⟩ := at?_tidy _ y a hy
  rw [Parser.finalTree, at?_settle, layout, hz, Option.map_some] at he
  rw [← Option.some.inj he, settle_tag, hzy, hyx]

/-! ### Anchors -/

theorem Anchor.isAsciiWord_opening : isAsciiWord Mark.opening = false := by decide

theorem Anchor.opening_not_mem_hyphenate (inGap : Bool) (cs : Text) :
    Mark.opening ∉ Anchor.hyphenate inGap cs := by
  induction cs generalizing inGap with
  | nil => exact List.not_mem_nil
  | cons c cs ih =>
    unfold Anchor.hyphenate
    split
    · next hword =>
      rw [List.mem_cons, not_or]
      refine ⟨?_, ih false⟩
      intro hc
      rw [← hc, Anchor.isAsciiWord_opening] at hword
      cases hword
    · split
      · exact ih true
      · rw [List.mem_cons, not_or]
        exact ⟨by decide, ih true⟩

theorem settleText_of_not_mem (cs : Text) (h : Mark.opening ∉ cs) : settleText cs = cs := by
  unfold settleText
  rw [Mark.unescape_of_not_mem h]

theorem Anchor.settleText_ofText (text : Text) :
    settleText (Anchor.ofText text) = Anchor.ofText text :=
  settleText_of_not_mem _ (Anchor.opening_not_mem_hyphenate false _)

/-- A heading whose id is the anchor of the text that a reader of the page sees in it. -/
def AnchorShown (stash : Stash) (heading : Tree) : Prop :=
  ∃ text, Html.shown (insideOf stash heading) = .ok text ∧
    heading.attr? "id" = some (Anchor.ofText text)

namespace Parser

/-- The tree of a source once it is decorated, before it is laid out. -/
def decorated (parser : Parser) (source : Text) : Tree :=
  (decorate (parser.read source).2.stash (parser.read source).1).1

theorem handed_tree (parser : Parser) (source : Text) :
    (parser.handed decorate source).tree = finalTree (parser.decorated source) := by
  unfold handed decorated
  cases parser.read source with
  | mk tree after => rfl

/-- A tree that is decorated to its end has all its anchors. -/
theorem anchored_decorated (parser : Parser) (source : Text)
    (h : (parser.handed decorate source).failure = none) :
    Anchored (parser.handed decorate source).stash (parser.decorated source) := by
  have htag := read_tag parser source
  unfold handed at h ⊢
  unfold decorated
  cases hr : parser.read source with
  | mk tree after =>
    rw [hr] at h htag
    have hplain : headingTags.contains tree.tag = false := by
      rw [show tree.tag = "div" from htag]
      decide
    have hwalk := decorate_eq_decorateTree after.stash tree hplain
    dsimp only at h ⊢
    rw [hwalk] at h ⊢
    exact anchored_decorateTree after.stash tree h

/-- The id of a legible heading of the second level is the anchor of the text that a reader of the
page sees in it, if and only if the heading holds no character of a mail address in angle brackets. -/
theorem anchorShown_iff (parser : Parser) (source : Text) (a : Address) (e : Tree)
    (heading : Element (List Token)) (hdone : (parser.handed decorate source).failure = none)
    (he : (parser.handed decorate source).tree.at? a = some e) (htag : e.tag = "h2")
    (hheading : (parser.decorated source).at? a = some (heading.map Token.write))
    (hl : Legible (parser.handed decorate source).stash heading) :
    AnchorShown (parser.handed decorate source).stash e ↔
      ∀ c, .disguised c ∉ (Token.texts heading).flatten := by
  rw [handed_tree] at he
  have h2 : heading.tag = "h2" := by
    have hsame := tag_finalTree _ _ e a hheading he
    rw [Token.map_tag] at hsame
    exact hsame.symm.trans htag
  obtain ⟨text, htext, hid⟩ := anchored_decorated parser source hdone a _ hheading
    ((Token.map_tag Token.write heading).trans h2)
  obtain ⟨e', he', -, hattr, hown, hchildren⟩ := at?_finalTree _ heading a hheading h2 hl.inline
  rw [he'] at he
  cases Option.some.inj he
  rw [hid, Option.map_some, Anchor.settleText_ofText] at hattr
  obtain ⟨hsame, hfewer⟩ := hl.reveals htext e hown hchildren
  rw [← Token.disguises_eq_zero]
  constructor
  · intro ⟨shown, hshown, hanchor⟩
    have hle := hfewer text shown rfl hshown
    have heq : Anchor.letters text = Anchor.letters shown := by
      rw [hattr] at hanchor
      rw [← Anchor.countP_ofText, ← Anchor.countP_ofText, Option.some.inj hanchor]
    omega
  · intro hnone
    exact ⟨text, (hsame hnone).symm, hattr⟩

/-! ### A heading without a mail address and one with it -/

/-- A source with two headings of the second level. -/
def twoHeadings : Text :=
  "## A\\* *b*\n\n## <a@b>".toList

/-- The first of the headings. -/
def starredHeading : Element (List Token) :=
  ⟨"h2", [("class", (HeadingLook.ofLevel 2).classes.toList), ("id", "a-b".toList)],
    some [.char 'A', .escaped '*', .char ' '], none,
    [⟨"em", [], some [.char 'b'], none, []⟩]⟩

/-- The second of the headings. -/
def mailHeading : Element (List Token) :=
  ⟨"h2", [("class", (HeadingLook.ofLevel 2).classes.toList),
      ("id", "-amp-97-amp-64-amp-98-".toList)], none, none,
    [⟨"a", [("href", "mailto:a@b".toList.flatMap Span.disguiseByNumber)],
      some [.disguised 'a', .disguised '@', .disguised 'b'], none, []⟩]⟩

theorem legible_starredHeading (stash : Stash) : Legible stash starredHeading := by
  refine ⟨?_, ?_, ?_, ?_⟩
  · intro child hc
    cases List.mem_singleton.mp hc
    exact .intro (by decide) (List.forall_mem_nil _) (fun h => absurd h (by decide))
      (fun h => absurd h (by decide)) (List.forall_mem_nil _)
  · simp [starredHeading, Token.texts, Token.textsAll, Token.IsFree]
    decide
  · intro index hm
    simp [starredHeading, Token.texts, Token.textsAll] at hm
  · simp [starredHeading, Token.texts, Token.textsAll, Token.AllCalm, Token.Calm, Token.char?]

theorem legible_mailHeading (stash : Stash) : Legible stash mailHeading := by
  refine ⟨?_, ?_, ?_, ?_⟩
  · intro child hc
    cases List.mem_singleton.mp hc
    refine .intro (by decide) ?_ (fun h => absurd h (by decide)) (fun h => absurd h (by decide))
      (List.forall_mem_nil _)
    intro a ha
    cases List.mem_singleton.mp ha
    decide +kernel
  · simp [mailHeading, Token.texts, Token.textsAll, Token.IsFree]
  · intro index hm
    simp [mailHeading, Token.texts, Token.textsAll] at hm
  · simp [mailHeading, Token.texts, Token.textsAll, Token.AllCalm, Token.Calm, Token.char?]

theorem decorated_twoHeadings :
    (fresh.handed decorate twoHeadings).failure = none ∧
      (fresh.decorated twoHeadings).at? [0, 0] = some (starredHeading.map Token.write) ∧
      (fresh.decorated twoHeadings).at? [1, 0] = some (mailHeading.map Token.write) := by
  refine ⟨?_, ?_, ?_⟩ <;> decide +kernel

theorem tags_twoHeadings :
    ((fresh.handed decorate twoHeadings).tree.at? [0, 0]).map tag = some "h2" ∧
      ((fresh.handed decorate twoHeadings).tree.at? [1, 0]).map tag = some "h2" := by
  refine ⟨?_, ?_⟩ <;> decide +kernel

theorem anchorShown_twoHeadings :
    (fresh.handed decorate twoHeadings).failure = none ∧
      (∃ e, (fresh.handed decorate twoHeadings).tree.at? [0, 0] = some e ∧ e.tag = "h2" ∧
        (fresh.decorated twoHeadings).at? [0, 0] = some (starredHeading.map Token.write) ∧
        Legible (fresh.handed decorate twoHeadings).stash starredHeading ∧
        AnchorShown (fresh.handed decorate twoHeadings).stash e) ∧
      ∃ e, (fresh.handed decorate twoHeadings).tree.at? [1, 0] = some e ∧ e.tag = "h2" ∧
        (fresh.decorated twoHeadings).at? [1, 0] = some (mailHeading.map Token.write) ∧
        Legible (fresh.handed decorate twoHeadings).stash mailHeading ∧
        ¬AnchorShown (fresh.handed decorate twoHeadings).stash e := by
  obtain ⟨hdone, hstarred, hmail⟩ := decorated_twoHeadings
  obtain ⟨hfirst, hsecond⟩ := tags_twoHeadings
  obtain ⟨e, he, htag⟩ := Option.map_eq_some_iff.mp hfirst
  obtain ⟨f, hf, htag'⟩ := Option.map_eq_some_iff.mp hsecond
  have hlegible := legible_starredHeading (fresh.handed decorate twoHeadings).stash
  have hlegible' := legible_mailHeading (fresh.handed decorate twoHeadings).stash
  have hshown := anchorShown_iff fresh twoHeadings [0, 0] e starredHeading hdone he htag hstarred
    hlegible
  have hhidden := anchorShown_iff fresh twoHeadings [1, 0] f mailHeading hdone hf htag' hmail
    hlegible'
  refine ⟨hdone, ⟨e, he, htag, hstarred, hlegible, hshown.mpr ?_⟩,
    f, hf, htag', hmail, hlegible', ?_⟩
  · intro c hc
    simp [starredHeading, Token.texts, Token.textsAll] at hc
  · intro hanchor
    exact hhidden.mp hanchor 'a' (by simp [mailHeading, Token.texts, Token.textsAll])

/-- The anchor of a mail address is not made from what a reader sees, which is the address. -/
theorem mailAnchor_not_shown :
    ∃ e, (fresh.handed decorate "## <a@b>".toList).tree.at? [0, 0] = some e ∧ e.tag = "h2" ∧
      ¬AnchorShown (fresh.handed decorate "## <a@b>".toList).stash e := by
  have heval : ((fresh.handed decorate "## <a@b>".toList).tree.at? [0, 0]).map
      (fun e => (e.tag, e.attr? "id",
        (Html.shown (insideOf (fresh.handed decorate "## <a@b>".toList).stash e)).toOption)) =
      some ("h2", some "-amp-97-amp-64-amp-98-".toList, some "a@b".toList) := by
    decide +kernel
  obtain ⟨e, he, hvalues⟩ := Option.map_eq_some_iff.mp heval
  rw [Prod.mk.injEq, Prod.mk.injEq] at hvalues
  obtain ⟨htag, hid, hseen⟩ := hvalues
  refine ⟨e, he, htag, ?_⟩
  intro ⟨text, htext, hanchor⟩
  rw [htext] at hseen
  have hsame : text = "a@b".toList := Option.some.inj hseen
  rw [hid, hsame] at hanchor
  revert hanchor
  decide +kernel

end Parser

end Changelog
