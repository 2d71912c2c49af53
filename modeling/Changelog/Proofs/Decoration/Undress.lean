import Changelog.Markdown.Parser
import Changelog.Proofs.Decoration.Reference

/-!
# Decoration undone

`undress` takes the boxes off headings of the second level and the decorated attributes off all
elements.  It undoes the decoration of every tree, finished or broken off, and it does not matter
whether that happens before line ends are put in and escaped characters are put back, or after.
-/

namespace Changelog.Element

/-- Whether undoing the decoration leaves an element with this tag an attribute of this name. -/
def keepsAttr (tag name : String) : Bool :=
  !(name == "class" && (headingTags.contains tag || listTags.contains tag || tag == "li")) &&
    !(name == "id" && tag == "h2")

/-- The heading of the second level that alone is in a box, with the text after the box. -/
def unbox (e : Tree) : Tree :=
  match e.children with
  | [heading] => if e.tag = "div" ∧ heading.tag = "h2" then { heading with tail := e.tail } else e
  | _ => e

mutual

/-- The tree without its decoration; the root stays where it is. -/
def undress : Tree → Tree
  | ⟨tag, attrs, text, tail, children⟩ =>
    ⟨tag, attrs.filter fun a => keepsAttr tag a.1, text, tail, undressAll children⟩

/-- Elements without their decoration and their boxes. -/
def undressAll : List Tree → List Tree
  | [] => []
  | e :: es => unbox (undress e) :: undressAll es

end

/-! ### Boxes -/

theorem unbox_of_tag (e : Tree) (h : e.tag ≠ "div") : unbox e = e := by
  unfold unbox
  split
  · exact if_neg fun hd => h hd.1
  · rfl

theorem unbox_box (attrs : List (String × Text)) (text tail : Option Text) (heading : Tree)
    (h : heading.tag = "h2") :
    unbox ⟨"div", attrs, text, tail, [heading]⟩ = { heading with tail := tail } :=
  if_pos ⟨rfl, h⟩

/-- An element is a box of a heading, or nothing that is done to its texts, its attributes and the
insides of its children makes it one. -/
theorem box_cases (e : Tree) :
    (∃ attrs text tail heading, heading.tag = "h2" ∧
      e = ⟨"div", attrs, text, tail, [heading]⟩) ∨
    ∀ attrs text tail (children : List Tree), children.map tag = e.children.map tag →
      unbox ⟨e.tag, attrs, text, tail, children⟩ = ⟨e.tag, attrs, text, tail, children⟩ := by
  by_cases hbox : ∃ heading, e.tag = "div" ∧ e.children = [heading] ∧ heading.tag = "h2"
  · obtain ⟨heading, hd, hc, hh⟩ := hbox
    obtain ⟨tag, attrs, text, tail, children⟩ := e
    dsimp only at hd hc
    subst hd hc
    exact Or.inl ⟨attrs, text, tail, heading, hh, rfl⟩
  · refine Or.inr fun attrs text tail children hmap => ?_
    unfold unbox
    split
    · next heading hc =>
      dsimp only at hc
      subst hc
      apply if_neg
      intro hb
      obtain ⟨first, rest, hfirst, htag, hrest⟩ := List.map_eq_cons_iff.mp hmap.symm
      have hnil : rest = [] := List.map_eq_nil_iff.mp hrest
      rw [hnil] at hfirst
      exact hbox ⟨first, hb.1, hfirst, htag.trans hb.2⟩
    · rfl

theorem undress_tag (e : Tree) : (undress e).tag = e.tag := by
  obtain ⟨tag, attrs, text, tail, children⟩ := e
  rfl

theorem undress_isEmpty (e : Tree) : (undress e).children.isEmpty = e.children.isEmpty := by
  obtain ⟨tag, attrs, text, tail, children⟩ := e
  cases children with
  | nil => rfl
  | cons c cs => rfl

/-! ### The decoration itself -/

theorem filter_setIn (p : String → Bool) (name : String) (value : Text)
    (attrs : List (String × Text)) (h : p name = false) :
    (setIn name value attrs).filter (fun a => p a.1) = attrs.filter fun a => p a.1 := by
  induction attrs with
  | nil => simp [setIn, h]
  | cons a attrs ih =>
    by_cases ha : a.1 = name
    · simp [setIn, ha, h]
    · simp only [setIn, if_neg ha, List.filter_cons, ih]

/-- An attribute that is taken off again leaves no trace. -/
theorem undress_set (e : Tree) (name : String) (value : Text)
    (h : keepsAttr e.tag name = false) : undress (e.set name value) = undress e := by
  obtain ⟨tag, attrs, text, tail, children⟩ := e
  simp only [set, undress, filter_setIn (keepsAttr tag) name value attrs h]

theorem keepsAttr_class {tag : String}
    (h : headingTags.contains tag = true ∨ listTags.contains tag = true ∨ tag = "li") :
    keepsAttr tag "class" = false := by
  rcases h with h | h | h
  · simp only [keepsAttr, h, beq_self_eq_true, Bool.true_or, Bool.and_true, Bool.not_true,
      Bool.false_and]
  · simp only [keepsAttr, h, beq_self_eq_true, Bool.true_or, Bool.or_true, Bool.and_true,
      Bool.not_true, Bool.false_and]
  · simp only [keepsAttr, h, beq_self_eq_true, Bool.or_true, Bool.and_true, Bool.not_true,
      Bool.false_and]

theorem undress_restyled (stash : Stash) (e : Tree) :
    undress (restyled stash e).1 = undress e := by
  have hc (h : headingTags.contains e.tag = true ∨ listTags.contains e.tag = true ∨
      e.tag = "li") (classes : String) : undress (e.withClass classes) = undress e :=
    undress_set e "class" _ (keepsAttr_class h)
  cases hh : headingTags.contains e.tag with
  | true =>
    obtain ⟨level, hl, -, hanchor, -⟩ := look_of_heading e.tag hh
    simp only [restyled, hh, hl, hanchor, if_true, decide_eq_true_eq]
    by_cases h2 : e.tag = "h2"
    · rw [if_pos h2]
      cases Anchor.textOf stash e with
      | error err => exact hc (Or.inl hh) _
      | ok text =>
        have hid : keepsAttr e.tag "id" = false := by
          rw [h2]
          decide
        exact (undress_set (e.withClass _) "id" _ hid).trans (hc (Or.inl hh) _)
    · rw [if_neg h2]
      exact hc (Or.inl hh) _
  | false =>
    simp only [restyled, hh, Bool.false_eq_true, if_false]
    by_cases hl : listTags.contains e.tag = true
    · rw [if_pos hl]
      exact hc (Or.inr (Or.inl hl)) _
    · rw [if_neg hl]
      by_cases hi : e.tag = "li"
      · rw [if_pos hi]
        exact hc (Or.inr (Or.inr hi)) _
      · rw [if_neg hi]

theorem restyled_tag (stash : Stash) (e : Tree) : (restyled stash e).1.tag = e.tag := by
  have h : (undress (restyled stash e).1).tag = (undress e).tag := by rw [undress_restyled]
  rwa [undress_tag, undress_tag] at h

/-- Undoing the decoration looks at the inside of an element only after it was undone there. -/
theorem undress_congr (e : Tree) (children : List Tree)
    (h : undressAll children = undressAll e.children) :
    undress { e with children := children } = undress e := by
  obtain ⟨tag, attrs, text, tail, others⟩ := e
  simp only [undress, h]

/-- An element with its own look undone, whatever was done to its children and undone there. -/
theorem undress_own (stash : Stash) (e own : Tree) (children : List Tree)
    (hown : (restyled stash e).1 = own) (h : undressAll children = undressAll e.children) :
    undress { own with children := children } = undress e := by
  have hchildren : own.children = e.children := hown ▸ restyled_children stash e
  have hundress : undress own = undress e := hown ▸ undress_restyled stash e
  rw [undress_congr own children (by rw [h, hchildren]), hundress]

theorem undress_tail (e : Tree) (tail : Option Text) :
    undress { e with tail := tail } = { undress e with tail := tail } := by
  obtain ⟨tag, attrs, text, old, children⟩ := e
  rfl

/-- A box that was put around a heading is taken off again. -/
theorem unbox_undress_boxed (classes : String) (e : Tree) (h : e.tag = "h2") :
    unbox (undress (boxed classes e)) = undress e := by
  have hbare : unbox (undress { e with tail := none }) = undress { e with tail := none } := by
    apply unbox_of_tag
    rw [undress_tag, h]
    decide
  have hinner : (undress { e with tail := none }).tag = "h2" := by
    rw [undress_tag]
    exact h
  rw [boxed, undress, undressAll, hbare, undressAll, unbox_box _ _ _ _ hinner, undress_tail]
  obtain ⟨tag, attrs, text, tail, children⟩ := e
  rfl

mutual

theorem undress_decorateTree (stash : Stash) : ∀ e : Tree,
    unbox (undress (decorateTree stash e).1) = unbox (undress e)
  | ⟨tag, attrs, text, tail, children⟩ => by
    have hinside := undress_decorateForest stash children
    simp only [decorateTree]
    cases hr : restyled stash ⟨tag, attrs, text, tail, children⟩ with
    | mk own failure =>
      have hown : (restyled stash ⟨tag, attrs, text, tail, children⟩).1 = own := by rw [hr]
      have hall := undress_own stash _ own (decorateForest stash children).1 hown hinside
      have htag : own.tag = tag := hown ▸ restyled_tag stash _
      cases failure with
      | some err =>
        dsimp only
        rw [← hown, undress_restyled]
      | none =>
        dsimp only
        rw [boxOf?_eq]
        by_cases h2 : tag = "h2"
        · have hplain : unbox (undress ⟨tag, attrs, text, tail, children⟩) =
              undress ⟨tag, attrs, text, tail, children⟩ := by
            apply unbox_of_tag
            rw [undress_tag]
            show tag ≠ "div"
            rw [h2]
            decide
          rw [if_pos h2, hplain, ← hall]
          exact unbox_undress_boxed _ _ (htag.trans h2)
        · rw [if_neg h2]
          exact congrArg unbox hall

theorem undress_decorateForest (stash : Stash) : ∀ es : List Tree,
    undressAll (decorateForest stash es).1 = undressAll es
  | [] => rfl
  | e :: es => by
    have hfirst := undress_decorateTree stash e
    have hothers := undress_decorateForest stash es
    simp only [decorateForest]
    cases hd : decorateTree stash e with
    | mk first failure =>
      rw [hd] at hfirst
      cases failure with
      | some err => simp only [undressAll, hfirst]
      | none => simp only [undressAll, hfirst, hothers]

end

/-- The decoration of a document, also one that was broken off, can be undone. -/
theorem undress_decorate (stash : Stash) (tree : Tree) (h : tree.tag = "div") :
    undress (decorate stash tree).1 = undress tree := by
  have hh : headingTags.contains tree.tag = false := by
    rw [h]
    decide
  have hbox : boxOf? tree.tag = none := boxOf?_eq_none tree.tag hh
  rw [decorate_eq_decorateTree stash tree hh]
  obtain ⟨tag, attrs, text, tail, children⟩ := tree
  simp only [decorateTree]
  cases hr : restyled stash ⟨tag, attrs, text, tail, children⟩ with
  | mk own failure =>
    have hown : (restyled stash ⟨tag, attrs, text, tail, children⟩).1 = own := by rw [hr]
    cases failure with
    | some err =>
      dsimp only
      rw [← hown, undress_restyled]
    | none =>
      dsimp only at hbox ⊢
      rw [hbox]
      exact undress_own stash _ own _ hown (undress_decorateForest stash children)

end Changelog.Element
