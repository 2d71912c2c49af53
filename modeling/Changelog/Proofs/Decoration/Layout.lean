import Changelog.Markdown.Parser
import Changelog.Proofs.Decoration.Undress

/-!
# Decoration and layout

Line ends are put between elements, and escaped characters are put back, in the same way with the
decoration and without it: the passes that finish a tree commute with `undress`.
-/

namespace Changelog.Element

/-! ### Line ends between elements -/

/-- A child as its parent breaks its lines. -/
def breakChild (e : Tree) : Tree :=
  if e.isBlock then breakLines e else e

theorem breakLinesAll_eq_map (es : List Tree) : breakLinesAll es = es.map breakChild := by
  induction es with
  | nil => rfl
  | cons e es ih => simp only [breakLinesAll, List.map_cons, breakChild, ih]

theorem breakLines_tag (e : Tree) : (breakLines e).tag = e.tag := by
  obtain ⟨tag, attrs, text, tail, children⟩ := e
  unfold breakLines
  split
  · rfl
  · rfl

theorem breakChild_tag (e : Tree) : (breakChild e).tag = e.tag := by
  unfold breakChild
  split
  · exact breakLines_tag e
  · rfl

/-- An element with its lines broken has its tag, its attributes and as many children as before. -/
theorem breakLines_eq (e : Tree) : ∃ text children,
    breakLines e = ⟨e.tag, e.attrs, text, breakBlank e.tail, children⟩ ∧
      children.map tag = e.children.map tag := by
  obtain ⟨tag, attrs, text, tail, children⟩ := e
  unfold breakLines
  split
  · refine ⟨_, breakLinesAll children, rfl, ?_⟩
    rw [breakLinesAll_eq_map, List.map_map]
    exact List.map_congr_left fun c _ => breakChild_tag c
  · exact ⟨text, children, rfl, rfl⟩

theorem breakLines_tail (e : Tree) (tail : Option Text) :
    breakLines { e with tail := tail } = { breakLines e with tail := breakBlank tail } := by
  obtain ⟨tag, attrs, text, old, children⟩ := e
  simp only [breakLines]
  split
  · rfl
  · rfl

theorem isBlockTag_div : isBlockTag "div".toList = true := by decide

theorem isBlockTag_h2 : isBlockTag "h2".toList = true := by decide

theorem isBlock_of_h2 (e : Tree) (h : e.tag = "h2") : isBlock e = true := by
  rw [isBlock, h, isBlockTag_h2]

theorem breakLines_div (attrs : List (String × Text)) (text tail : Option Text)
    (children : List Tree) : ∃ lead, breakLines ⟨"div", attrs, text, tail, children⟩ =
      ⟨"div", attrs, lead, breakBlank tail, children.map breakChild⟩ := by
  have htag : (isBlockTag "div".toList && "div" != "code" && "div" != "pre") = true := by
    rw [isBlockTag_div]
    decide
  rw [breakLines, if_pos htag, breakLinesAll_eq_map]
  exact ⟨_, rfl⟩

theorem unbox_breakChild (e : Tree) : unbox (breakChild e) = breakChild (unbox e) := by
  cases box_cases e with
  | inl hbox =>
    obtain ⟨attrs, text, tail, heading, hh, rfl⟩ := hbox
    have houter : breakChild ⟨"div", attrs, text, tail, [heading]⟩ =
        breakLines ⟨"div", attrs, text, tail, [heading]⟩ := if_pos isBlockTag_div
    have hinner : breakChild heading = breakLines heading := if_pos (isBlock_of_h2 heading hh)
    have hbare : breakChild { heading with tail := tail } =
        breakLines { heading with tail := tail } := if_pos (isBlock_of_h2 _ hh)
    have htag : (breakLines heading).tag = "h2" := (breakLines_tag heading).trans hh
    obtain ⟨lead, hlines⟩ := breakLines_div attrs text tail [heading]
    rw [houter, hlines, List.map_cons, List.map_nil, hinner, unbox_box _ _ _ _ htag,
      unbox_box _ _ _ _ hh, hbare, breakLines_tail]
  | inr hplain =>
    have hsame : unbox e = e := by
      obtain ⟨tag, attrs, text, tail, children⟩ := e
      exact hplain attrs text tail children rfl
    rw [hsame]
    unfold breakChild
    split
    · obtain ⟨text, children, heq, hmap⟩ := breakLines_eq e
      rw [heq]
      exact hplain _ _ _ _ hmap
    · exact hsame

theorem unbox_isBlock (e : Tree) : isBlock (unbox e) = isBlock e := by
  cases box_cases e with
  | inl hbox =>
    obtain ⟨attrs, text, tail, heading, hh, rfl⟩ := hbox
    rw [unbox_box _ _ _ _ hh]
    exact (isBlock_of_h2 { heading with tail := tail } hh).trans isBlockTag_div.symm
  | inr hplain =>
    obtain ⟨tag, attrs, text, tail, children⟩ := e
    rw [hplain attrs text tail children rfl]

theorem startsWithBlock_undressAll (es : List Tree) :
    startsWithBlock (undressAll es) = startsWithBlock es := by
  cases es with
  | nil => rfl
  | cons e es =>
    rw [undressAll, startsWithBlock, startsWithBlock, unbox_isBlock, isBlock, isBlock, undress_tag]

mutual

theorem undress_breakLines : ∀ e : Tree, undress (breakLines e) = breakLines (undress e)
  | ⟨tag, attrs, text, tail, children⟩ => by
    have hinside := undressAll_breakLinesAll children
    have hstart := startsWithBlock_undressAll children
    simp only [breakLines, undress]
    by_cases hb : (isBlockTag tag.toList && tag != "code" && tag != "pre") = true
    · simp only [if_pos hb, undress, hinside, hstart]
    · simp only [if_neg hb, undress]

theorem undressAll_breakLinesAll : ∀ es : List Tree,
    undressAll (breakLinesAll es) = breakLinesAll (undressAll es)
  | [] => rfl
  | e :: es => by
    have hfirst : undress (breakChild e) = breakChild (undress e) := by
      have hblock : isBlock (undress e) = isBlock e := by rw [isBlock, isBlock, undress_tag]
      unfold breakChild
      rw [hblock]
      split
      · exact undress_breakLines e
      · rfl
    have hothers := undressAll_breakLinesAll es
    show unbox (undress (breakChild e)) :: undressAll (breakLinesAll es) =
      breakChild (unbox (undress e)) :: breakLinesAll (undressAll es)
    rw [hfirst, unbox_breakChild, hothers]

end

/-! ### Line ends at the end of code and after line breaks -/

/-- A child as an element with the given tag tidies its first one. -/
def tidyFirst (tag : String) (e : Tree) : Tree :=
  if tag == "pre" && e.tag == "code" && e.children.isEmpty then
    { tidy e with text := (tidy e).text.map fun t => Text.trimEnd t ++ ['\n'] }
  else tidy e

theorem tidyAll_eq_map (es : List Tree) : tidyAll es = es.map tidy := by
  induction es with
  | nil => rfl
  | cons e es ih => simp only [tidyAll, List.map_cons, ih]

theorem tidyCode_cons (tag : String) (e : Tree) (es : List Tree) :
    tidyCode tag (e :: es) = tidyFirst tag e :: tidyAll es := rfl

theorem tidy_tag (e : Tree) : (tidy e).tag = e.tag := by
  obtain ⟨tag, attrs, text, tail, children⟩ := e
  rfl

theorem tidyFirst_tag (tag : String) (e : Tree) : (tidyFirst tag e).tag = e.tag := by
  unfold tidyFirst
  split
  · exact tidy_tag e
  · exact tidy_tag e

theorem map_tag_tidyCode (t : String) (es : List Tree) :
    (tidyCode t es).map tag = es.map tag := by
  cases es with
  | nil => rfl
  | cons e es =>
    rw [tidyCode_cons, tidyAll_eq_map, List.map_cons, List.map_cons, List.map_map, tidyFirst_tag]
    congr 1
    exact List.map_congr_left fun c _ => tidy_tag c

theorem unbox_tidy (e : Tree) : unbox (tidy e) = tidy (unbox e) := by
  cases box_cases e with
  | inl hbox =>
    obtain ⟨attrs, text, tail, heading, hh, rfl⟩ := hbox
    have htag : (tidy heading).tag = "h2" := (tidy_tag heading).trans hh
    rw [unbox_box _ _ _ _ hh, tidy, tidyCode_cons]
    show unbox ⟨"div", attrs, text, tail, [tidy heading]⟩ = _
    rw [unbox_box _ _ _ _ htag]
    obtain ⟨tag, inner, lead, old, children⟩ := heading
    dsimp only at hh
    subst hh
    rfl
  | inr hplain =>
    obtain ⟨tag, attrs, text, tail, children⟩ := e
    rw [hplain attrs text tail children rfl, tidy]
    exact hplain _ _ _ _ (map_tag_tidyCode tag children)

theorem tidy_text (e : Tree) : (tidy e).text = e.text := by
  obtain ⟨tag, attrs, text, tail, children⟩ := e
  rfl

theorem undress_text (e : Tree) : (undress e).text = e.text := by
  obtain ⟨tag, attrs, text, tail, children⟩ := e
  rfl

theorem undress_withText (e : Tree) (text : Option Text) :
    undress { e with text := text } = { undress e with text := text } := by
  obtain ⟨tag, attrs, old, tail, children⟩ := e
  rfl

theorem unbox_tag_ne_code (e : Tree) (h : e.tag ≠ "code") : (unbox e).tag ≠ "code" := by
  cases box_cases e with
  | inl hbox =>
    obtain ⟨attrs, text, tail, heading, hh, rfl⟩ := hbox
    rw [unbox_box _ _ _ _ hh]
    show heading.tag ≠ "code"
    rw [hh]
    decide
  | inr hplain =>
    obtain ⟨tag, attrs, text, tail, children⟩ := e
    rwa [hplain attrs text tail children rfl]

theorem tidyFirst_of_tag (tag : String) (e : Tree) (h : e.tag ≠ "code") :
    tidyFirst tag e = tidy e := by
  apply if_neg
  simp [h]

mutual

theorem undress_tidy : ∀ e : Tree, undress (tidy e) = tidy (undress e)
  | ⟨tag, attrs, text, tail, children⟩ => by
    simp only [tidy, undress, undressAll_tidyCode tag children]

theorem undressAll_tidyCode (tag : String) : ∀ es : List Tree,
    undressAll (tidyCode tag es) = tidyCode tag (undressAll es)
  | [] => rfl
  | e :: es => by
    have hpass := undress_tidy e
    have hothers := undressAll_tidyAll es
    have hfirst : unbox (undress (tidyFirst tag e)) = tidyFirst tag (unbox (undress e)) := by
      by_cases hcode : e.tag = "code"
      · have hne : ∀ x : Tree, x.tag = "code" → unbox x = x := fun x hx =>
          unbox_of_tag x (by rw [hx]; decide)
        rw [hne (undress e) ((undress_tag e).trans hcode)]
        unfold tidyFirst
        rw [undress_tag, undress_isEmpty, tidy_text, tidy_text, undress_text]
        split
        · rw [undress_withText, hpass]
          exact hne _ ((tidy_tag _).trans ((undress_tag e).trans hcode))
        · rw [hpass]
          exact hne _ ((tidy_tag _).trans ((undress_tag e).trans hcode))
      · have hcode' : (undress e).tag ≠ "code" := by rwa [undress_tag]
        rw [tidyFirst_of_tag tag e hcode,
          tidyFirst_of_tag tag _ (unbox_tag_ne_code _ hcode'), hpass, unbox_tidy]
    rw [tidyCode_cons, undressAll, hfirst, hothers, undressAll, tidyCode_cons]

theorem undressAll_tidyAll : ∀ es : List Tree, undressAll (tidyAll es) = tidyAll (undressAll es)
  | [] => rfl
  | e :: es => by
    have hfirst := undress_tidy e
    have hothers := undressAll_tidyAll es
    rw [tidyAll, undressAll, hfirst, unbox_tidy, hothers, undressAll, tidyAll]

end

/-! ### Escaped characters put back -/

theorem settleAll_eq_map (es : List Tree) : settleAll es = es.map settle := by
  induction es with
  | nil => rfl
  | cons e es ih => simp only [settleAll, List.map_cons, ih]

theorem settle_tag (e : Tree) : (settle e).tag = e.tag := by
  obtain ⟨tag, attrs, text, tail, children⟩ := e
  rfl

theorem unbox_settle (e : Tree) : unbox (settle e) = settle (unbox e) := by
  cases box_cases e with
  | inl hbox =>
    obtain ⟨attrs, text, tail, heading, hh, rfl⟩ := hbox
    have htag : (settle heading).tag = "h2" := (settle_tag heading).trans hh
    rw [unbox_box _ _ _ _ hh, settle, settleAll_eq_map, List.map_cons, List.map_nil,
      unbox_box _ _ _ _ htag]
    obtain ⟨tag, inner, lead, old, children⟩ := heading
    rfl
  | inr hplain =>
    obtain ⟨tag, attrs, text, tail, children⟩ := e
    rw [hplain attrs text tail children rfl, settle]
    apply hplain
    rw [settleAll_eq_map, List.map_map]
    exact List.map_congr_left fun c _ => settle_tag c

mutual

theorem undress_settle : ∀ e : Tree, undress (settle e) = settle (undress e)
  | ⟨tag, attrs, text, tail, children⟩ => by
    simp only [settle, undress, undressAll_settleAll children, List.filter_map, Function.comp_def]

theorem undressAll_settleAll : ∀ es : List Tree,
    undressAll (settleAll es) = settleAll (undressAll es)
  | [] => rfl
  | e :: es => by
    have hfirst := undress_settle e
    have hothers := undressAll_settleAll es
    rw [settleAll, undressAll, hfirst, unbox_settle, hothers, undressAll, settleAll]

end

/-- A tree is finished in the same way with its decoration and without it. -/
theorem undress_finalTree (tree : Tree) :
    undress (Parser.finalTree tree) = Parser.finalTree (undress tree) := by
  rw [Parser.finalTree, Parser.finalTree, undress_settle, layout, undress_tidy,
    undress_breakLines, layout]

end Changelog.Element
