import Changelog.Proofs.Anchors.Inline
import Changelog.Proofs.Decoration.Rendering

/-!
# Headings in finished trees

In a tree that is decorated to its end every heading of the second level has the anchor of the text
inside it.  The passes that finish the tree leave a heading at its address, with its attributes and
its texts settled.
-/

namespace Changelog

open Text Element

namespace Element

/-! ### Texts and anchors of a decorated tree -/

theorem attr?_set (e : Tree) (name : String) (value : Text) :
    (e.set name value).attr? name = some value := by
  obtain ⟨tag, attrs, text, tail, children⟩ := e
  unfold attr? set
  dsimp only
  induction attrs with
  | nil => simp only [setIn, List.find?_cons, beq_self_eq_true, Option.map_some]
  | cons a attrs ih =>
    unfold setIn
    split
    · simp only [List.find?_cons, beq_self_eq_true, Option.map_some]
    · next hne => rw [List.find?_cons, beq_eq_false_iff_ne.mpr hne, ih]

/-- The look of an element is in its attributes alone. -/
theorem restyled_attrs (stash : Stash) (e : Tree) :
    ∃ attrs, (restyled stash e).1 = { e with attrs := attrs } := by
  obtain ⟨tag, attrs, text, tail, children⟩ := e
  unfold restyled
  split
  · cases headingLevel tag with
    | error err => exact ⟨attrs, rfl⟩
    | ok level =>
      dsimp only
      split
      · cases Anchor.textOf stash ⟨tag, attrs, text, tail, children⟩ with
        | error err => exact ⟨_, rfl⟩
        | ok shown => exact ⟨_, rfl⟩
      · exact ⟨_, rfl⟩
  · split
    · exact ⟨_, rfl⟩
    · split
      · exact ⟨_, rfl⟩
      · exact ⟨attrs, rfl⟩

mutual

/-- The decoration adds no text to an element and takes none away. -/
theorem innerText_decorateTree (stash : Stash) : ∀ e : Tree,
    innerText (decorateTree stash e).1 = innerText e ∧ (decorateTree stash e).1.tail = e.tail
  | ⟨tag, attrs, text, tail, children⟩ => by
    have hinside := innerTextAll_decorateForest stash children
    obtain ⟨styled, hstyled⟩ := restyled_attrs stash ⟨tag, attrs, text, tail, children⟩
    unfold decorateTree
    cases hr : restyled stash ⟨tag, attrs, text, tail, children⟩ with
    | mk own failure =>
      rw [hr] at hstyled
      dsimp only at hstyled
      subst hstyled
      cases failure with
      | some err => exact ⟨rfl, rfl⟩
      | none =>
        dsimp only
        cases boxOf? tag with
        | none => exact ⟨by simp only [inBox, innerText, hinside], rfl⟩
        | some classes =>
          refine ⟨?_, rfl⟩
          simp only [inBox, boxed, innerText, innerTextAll, hinside, Option.getD_none,
            List.nil_append, List.append_nil]

theorem innerTextAll_decorateForest (stash : Stash) : ∀ es : List Tree,
    innerTextAll (decorateForest stash es).1 = innerTextAll es
  | [] => rfl
  | e :: es => by
    obtain ⟨hfirst, htail⟩ := innerText_decorateTree stash e
    have hothers := innerTextAll_decorateForest stash es
    unfold decorateForest
    cases hd : decorateTree stash e with
    | mk first failure =>
      rw [hd] at hfirst htail
      dsimp only at hfirst htail
      cases failure with
      | some err => simp only [innerTextAll, hfirst, htail]
      | none => simp only [innerTextAll, hfirst, htail, hothers]

end

/-- A heading of the second level with the anchor of the text inside it. -/
def HasAnchor (stash : Stash) (heading : Tree) : Prop :=
  ∃ text, Anchor.textOf stash heading = .ok text ∧ heading.attr? "id" = some (Anchor.ofText text)

/-- Every heading of the second level in a tree has the anchor of the text inside it. -/
def Anchored (stash : Stash) (tree : Tree) : Prop :=
  ∀ a h, tree.at? a = some h → h.tag = "h2" → HasAnchor stash h

theorem Anchored.intro {stash : Stash} {e : Tree} (hown : e.tag = "h2" → HasAnchor stash e)
    (hc : ∀ c ∈ e.children, Anchored stash c) : Anchored stash e :=
  forall_at? (fun h => h.tag = "h2" → HasAnchor stash h) hown hc

/-- A heading of the second level gets the anchor of the text inside it. -/
theorem hasAnchor_restyled (stash : Stash) (e : Tree) (htag : e.tag = "h2")
    (h : (restyled stash e).2 = none) : ∃ text, Anchor.textOf stash e = .ok text ∧
      (restyled stash e).1.attr? "id" = some (Anchor.ofText text) := by
  have hheading : headingTags.contains e.tag = true := by rw [htag]; decide
  obtain ⟨level, hlevel, -, hanchored, -⟩ := look_of_heading e.tag hheading
  unfold restyled at h ⊢
  rw [if_pos hheading, hlevel] at h ⊢
  dsimp only at h ⊢
  rw [hanchored, if_pos (decide_eq_true htag)] at h ⊢
  cases ht : Anchor.textOf stash e with
  | error err =>
    rw [ht] at h
    cases h
  | ok text => exact ⟨text, rfl, attr?_set _ _ _⟩

mutual

/-- A subtree that is decorated to its end has all its anchors. -/
theorem anchored_decorateTree (stash : Stash) : ∀ e : Tree, (decorateTree stash e).2 = none →
    Anchored stash (decorateTree stash e).1
  | ⟨tag, attrs, text, tail, children⟩, h => by
    have hanchor := hasAnchor_restyled stash ⟨tag, attrs, text, tail, children⟩
    have hforest := anchored_decorateForest stash children
    have hinner := innerTextAll_decorateForest stash children
    obtain ⟨styled, hstyled⟩ := restyled_attrs stash ⟨tag, attrs, text, tail, children⟩
    unfold decorateTree at h ⊢
    cases hr : restyled stash ⟨tag, attrs, text, tail, children⟩ with
    | mk own failure =>
      rw [hr] at h hstyled hanchor
      dsimp only at hstyled
      subst hstyled
      cases failure with
      | some err => cases h
      | none =>
        dsimp only at h hanchor ⊢
        have hown (after : Option Text) :
            Anchored stash ⟨tag, styled, text, after, (decorateForest stash children).1⟩ := by
          refine Anchored.intro (fun h2 => ?_) (hforest h)
          obtain ⟨shown, hshown, hid⟩ := hanchor h2 rfl
          refine ⟨shown, ?_, hid⟩
          rw [← hshown, Anchor.textOf, Anchor.textOf, innerText, innerText, hinner]
        cases boxOf? tag with
        | none => exact hown tail
        | some classes =>
          refine Anchored.intro (fun h2 => absurd (show "div" = "h2" from h2) (by decide)) ?_
          intro c hc
          rw [List.mem_singleton.mp hc]
          exact hown none

theorem anchored_decorateForest (stash : Stash) : ∀ es : List Tree,
    (decorateForest stash es).2 = none → ∀ c ∈ (decorateForest stash es).1, Anchored stash c
  | [], _ => List.forall_mem_nil _
  | e :: es, h => by
    have hfirst := anchored_decorateTree stash e
    have hothers := anchored_decorateForest stash es
    unfold decorateForest at h ⊢
    cases hd : decorateTree stash e with
    | mk first failure =>
      rw [hd] at h hfirst
      cases failure with
      | some err => cases h
      | none => exact List.forall_mem_cons.mpr ⟨hfirst rfl, hothers h⟩

end

/-! ### Finished trees -/

theorem breakLines_children (e : Tree) :
    (breakLines e).children = e.children ∨ (breakLines e).children = e.children.map breakChild := by
  obtain ⟨tag, attrs, text, tail, children⟩ := e
  unfold breakLines
  split
  · exact Or.inr (breakLinesAll_eq_map children)
  · exact Or.inl rfl

/-- Line ends move no element. -/
theorem at?_breakLines (e x : Tree) (a : Address) (h : e.at? a = some x) :
    (breakLines e).at? a = some x ∨ (breakLines e).at? a = some (breakLines x) := by
  induction a generalizing e with
  | nil =>
    cases h
    exact Or.inr rfl
  | cons i a ih =>
    rw [at?_cons] at h ⊢
    obtain ⟨c, hc, hx⟩ := Option.bind_eq_some_iff.mp h
    rcases breakLines_children e with hsame | hmap
    · rw [hsame, hc]
      exact Or.inl hx
    · rw [hmap, List.getElem?_map, hc]
      show (breakChild c).at? a = some x ∨ (breakChild c).at? a = some (breakLines x)
      unfold breakChild
      split
      · exact ih c hx
      · exact Or.inl hx

theorem tidyFirst_children (tag : String) (e : Tree) :
    (tidyFirst tag e).children = (tidy e).children := by
  unfold tidyFirst
  split
  · rfl
  · rfl

theorem getElem?_tidyCode (tag : String) (es : List Tree) (i : Nat) :
    (tidyCode tag es)[i]? = es[i]?.map fun e => if i = 0 then tidyFirst tag e else tidy e := by
  cases es with
  | nil => rfl
  | cons e es =>
    rw [tidyCode_cons, tidyAll_eq_map]
    cases i with
    | zero => rfl
    | succ i => exact List.getElem?_map

theorem tidy_children (e : Tree) : (tidy e).children = tidyCode e.tag e.children := by
  obtain ⟨tag, attrs, text, tail, children⟩ := e
  rfl

/-- Tidying moves no element, and treats all but code alike. -/
theorem at?_tidy (e x : Tree) (a : Address) (h : e.at? a = some x) :
    ∃ y, (tidy e).at? a = some y ∧ y.tag = x.tag ∧ (x.tag ≠ "code" → y = tidy x) := by
  induction a generalizing e with
  | nil =>
    cases h
    exact ⟨tidy x, rfl, tidy_tag x, fun _ => rfl⟩
  | cons i a ih =>
    rw [at?_cons] at h ⊢
    obtain ⟨c, hc, hcx⟩ := Option.bind_eq_some_iff.mp h
    rw [tidy_children, getElem?_tidyCode, hc]
    show ∃ y, (if i = 0 then tidyFirst e.tag c else tidy c).at? a = some y ∧ _
    split
    · cases a with
      | nil =>
        cases hcx
        exact ⟨tidyFirst e.tag x, rfl, tidyFirst_tag e.tag x, tidyFirst_of_tag e.tag x⟩
      | cons j a =>
        rw [at?_cons, tidyFirst_children, ← at?_cons]
        exact ih c hcx
    · exact ih c hcx

theorem settle_children (e : Tree) : (settle e).children = e.children.map settle := by
  obtain ⟨tag, attrs, text, tail, children⟩ := e
  rw [settle, settleAll_eq_map]

theorem at?_settle (e : Tree) (a : Address) : (settle e).at? a = (e.at? a).map settle := by
  induction a generalizing e with
  | nil => rfl
  | cons i a ih =>
    rw [at?_cons, at?_cons, settle_children, List.getElem?_map]
    cases e.children[i]? with
    | none => rfl
    | some c => exact ih c

/-- The attributes of an element, and its texts, once the tree is finished. -/
theorem attr?_settle (e : Tree) (name : String) :
    (settle e).attr? name = (e.attr? name).map settleText := by
  obtain ⟨tag, attrs, text, tail, children⟩ := e
  unfold settle attr?
  rw [List.find?_map, Option.map_map, Option.map_map]
  rfl

end Element

end Changelog
