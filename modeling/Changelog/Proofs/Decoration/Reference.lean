import Changelog.Proofs.Decoration.Recursion

/-!
# The decorated tree

`dressed` says in one recursion what a decorated document is: every element keeps its place among
its siblings, headings, lists and list items have their classes, and a heading of the second level
has its anchor and stands alone in a box.  `decorate_eq_dressed` says that the walk makes that tree.
-/

namespace Changelog

/-- The class of headings, lists and list items, by their tag. -/
def classOf? : String → Option String
  | "h1" => some (HeadingLook.ofLevel 1).classes
  | "h2" => some (HeadingLook.ofLevel 2).classes
  | "h3" => some (HeadingLook.ofLevel 3).classes
  | "h4" => some (HeadingLook.ofLevel 4).classes
  | "h5" => some (HeadingLook.ofLevel 5).classes
  | "h6" => some (HeadingLook.ofLevel 6).classes
  | "ul" => some listClass
  | "ol" => some listClass
  | "li" => some itemClass
  | _ => none

/-- The anchor of a heading whose text can be read. -/
def anchorOf (stash : Stash) (heading : Tree) : Text :=
  match Anchor.textOf stash heading with
  | .ok text => Anchor.ofText text
  | .error _ => []

namespace Element

/-- An element with its class, and with its anchor if it is a heading of the second level. -/
def marked (stash : Stash) (e : Tree) : Tree :=
  match classOf? e.tag with
  | none => e
  | some classes =>
    if e.tag = "h2" then (e.withClass classes).set "id" (anchorOf stash e) else e.withClass classes

mutual

/-- An element and all that it holds decorated; its anchor is made of what it held before. -/
def dressed (stash : Stash) : Tree → Tree
  | ⟨tag, attrs, text, tail, children⟩ =>
    { marked stash ⟨tag, attrs, text, tail, children⟩ with
      children := dressedAll stash children }

/-- The same for the children of an element; each keeps its index, and a heading of the second
level is in a box there. -/
def dressedAll (stash : Stash) : List Tree → List Tree
  | [] => []
  | e :: es =>
    (if e.tag = "h2" then boxed "mb-8" (dressed stash e) else dressed stash e) ::
      dressedAll stash es

end

/-- The text of every heading of the second level can be read. -/
def Readable (stash : Stash) (tree : Tree) : Prop :=
  ∀ a h, tree.at? a = some h → h.tag = "h2" → ∃ text, Anchor.textOf stash h = .ok text

theorem Readable.child {stash : Stash} {e c : Tree} (h : Readable stash e)
    (hc : c ∈ e.children) : Readable stash c :=
  forall_at?_child (fun h => h.tag = "h2" → ∃ text, Anchor.textOf stash h = .ok text) h hc

theorem Readable.intro {stash : Stash} {e : Tree}
    (hown : e.tag = "h2" → ∃ text, Anchor.textOf stash e = .ok text)
    (hc : ∀ c ∈ e.children, Readable stash c) : Readable stash e :=
  forall_at? (fun h => h.tag = "h2" → ∃ text, Anchor.textOf stash h = .ok text) hown hc

/-- The tag of a heading tells its level: only the second one has an anchor and a box. -/
theorem look_of_heading (tag : String) (h : headingTags.contains tag = true) :
    ∃ level : Nat, headingLevel tag = .ok level ∧
      classOf? tag = some (HeadingLook.ofLevel level).classes ∧
      (HeadingLook.ofLevel level).anchored = decide (tag = "h2") ∧
      (HeadingLook.ofLevel level).box = if tag = "h2" then some "mb-8" else none := by
  have hcases : tag = "h1" ∨ tag = "h2" ∨ tag = "h3" ∨ tag = "h4" ∨ tag = "h5" ∨ tag = "h6" := by
    simpa [headingTags] using h
  rcases hcases with rfl | rfl | rfl | rfl | rfl | rfl
  · exact ⟨1, rfl, rfl, rfl, rfl⟩
  · exact ⟨2, rfl, rfl, rfl, rfl⟩
  · exact ⟨3, rfl, rfl, rfl, rfl⟩
  · exact ⟨4, rfl, rfl, rfl, rfl⟩
  · exact ⟨5, rfl, rfl, rfl, rfl⟩
  · exact ⟨6, rfl, rfl, rfl, rfl⟩

theorem ne_h2_of_not_heading {tag : String} (h : headingTags.contains tag = false) :
    tag ≠ "h2" := by
  intro he
  rw [he] at h
  exact absurd h (by decide)

/-- Only headings of the second level are boxed. -/
theorem boxOf?_eq (tag : String) : boxOf? tag = if tag = "h2" then some "mb-8" else none := by
  cases hh : headingTags.contains tag with
  | false => rw [boxOf?_eq_none tag hh, if_neg (ne_h2_of_not_heading hh)]
  | true =>
    obtain ⟨level, hl, -, -, hbox⟩ := look_of_heading tag hh
    simp only [boxOf?, hh, if_true, hl, hbox]

theorem classOf?_of_not_heading (tag : String) (h : headingTags.contains tag = false) :
    classOf? tag =
      if listTags.contains tag then some listClass
      else if tag = "li" then some itemClass else none := by
  unfold classOf?
  split
  case h_7 => rfl
  case h_8 => rfl
  case h_9 => rfl
  case h_10 hu ho hl =>
    have hlist : listTags.contains tag = false := by
      simp only [listTags, List.contains_cons, List.contains_nil, Bool.or_false, Bool.or_eq_false_iff,
        beq_eq_false_iff_ne]
      exact ⟨hu, ho⟩
    rw [hlist, if_neg (by decide), if_neg hl]
  all_goals exact absurd h (by decide)

/-- The look of an element whose text can be read, if its tag asks for it. -/
theorem restyled_eq_marked (stash : Stash) (e : Tree)
    (h : e.tag = "h2" → ∃ text, Anchor.textOf stash e = .ok text) :
    restyled stash e = (marked stash e, none) := by
  cases hh : headingTags.contains e.tag with
  | true =>
    obtain ⟨level, hl, hclass, hanchor, -⟩ := look_of_heading e.tag hh
    simp only [restyled, marked, hh, hl, hclass, hanchor, if_true, decide_eq_true_eq]
    by_cases h2 : e.tag = "h2"
    · obtain ⟨text, htext⟩ := h h2
      simp only [if_pos h2, anchorOf, htext]
    · simp only [if_neg h2]
  | false =>
    simp only [restyled, marked, hh, classOf?_of_not_heading e.tag hh, Bool.false_eq_true,
      if_false]
    have h2 : e.tag ≠ "h2" := ne_h2_of_not_heading hh
    by_cases hlist : listTags.contains e.tag = true
    · simp only [if_pos hlist, if_neg h2]
    · by_cases hl : e.tag = "li"
      · simp only [if_neg hlist, if_pos hl, if_neg h2]
      · simp only [if_neg hlist, if_neg hl]

mutual

theorem decorateTree_eq (stash : Stash) : ∀ e : Tree, Readable stash e →
    decorateTree stash e =
      (if e.tag = "h2" then boxed "mb-8" (dressed stash e) else dressed stash e, none)
  | ⟨tag, attrs, text, tail, children⟩, h => by
    have hown := restyled_eq_marked stash ⟨tag, attrs, text, tail, children⟩ (h [] _ rfl)
    have hinside := decorateForest_eq stash children fun c hc => h.child hc
    simp only [decorateTree, hown, hinside, boxOf?_eq, dressed]
    split
    · rfl
    · rfl

theorem decorateForest_eq (stash : Stash) : ∀ es : List Tree, (∀ e ∈ es, Readable stash e) →
    decorateForest stash es = (dressedAll stash es, none)
  | [], _ => rfl
  | e :: es, h => by
    have hfirst := decorateTree_eq stash e (h e (List.mem_cons_self ..))
    have hothers := decorateForest_eq stash es fun c hc => h c (List.mem_cons_of_mem _ hc)
    simp only [decorateForest, hfirst, hothers, dressedAll]

end

end Element

open Element

/-- A document is decorated as the recursion says: the walk, which puts boxes into the tree that it
is walking over, leaves out no element and moves none away from its place. -/
theorem decorate_eq_dressed (stash : Stash) (tree : Tree) (hroot : tree.tag ∉ headingTags)
    (h : Readable stash tree) : decorate stash tree = (dressed stash tree, none) := by
  have hh : headingTags.contains tree.tag = false := by simpa using hroot
  rw [decorate_eq_decorateTree stash tree hh, decorateTree_eq stash tree h,
    if_neg (ne_h2_of_not_heading hh)]

/-- A heading with stored markup, and a heading inside it. -/
def nestedHeadings : Tree :=
  ⟨"div", [], none, none,
    [⟨"h2", [("class", "old".toList)], some ("A ".toList ++ Mark.raw 0), some "t".toList,
      [⟨"h2", [], some "B".toList, some "c".toList, []⟩]⟩]⟩

theorem readable_nestedHeadings : Readable (Stash.ofList ["<b>".toList]) nestedHeadings := by
  refine Readable.intro (fun h => absurd h (by decide)) ?_
  simp only [nestedHeadings, List.mem_singleton, forall_eq]
  refine Readable.intro (fun _ => ⟨"A Bc".toList, by rfl⟩) ?_
  simp only [List.mem_singleton, forall_eq]
  refine Readable.intro (fun _ => ⟨"B".toList, by rfl⟩) ?_
  intro c hc
  cases hc

theorem decorate_nestedHeadings :
    nestedHeadings.tag ∉ headingTags ∧ Readable (Stash.ofList ["<b>".toList]) nestedHeadings ∧
      decorate (Stash.ofList ["<b>".toList]) nestedHeadings =
        (⟨"div", [], none, none,
          [⟨"div", [("class", "mb-8".toList)], none, some "t".toList,
            [⟨"h2", [("class", (HeadingLook.ofLevel 2).classes.toList), ("id", "a-bc".toList)],
              some ("A ".toList ++ Mark.raw 0), none,
              [⟨"div", [("class", "mb-8".toList)], none, some "c".toList,
                [⟨"h2", [("class", (HeadingLook.ofLevel 2).classes.toList), ("id", "b".toList)],
                  some "B".toList, none, []⟩]⟩]⟩]⟩]⟩, none) := by
  have hroot : nestedHeadings.tag ∉ headingTags := by decide
  have hread := readable_nestedHeadings
  exact ⟨hroot, hread, (decorate_eq_dressed _ _ hroot hread).trans (by rfl)⟩

end Changelog
