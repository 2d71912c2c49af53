import Changelog.Proofs.Decoration.Boxes
import Changelog.Proofs.Tree.Address

/-!
# Decoration as a recursion

The walk over the addresses of a document does to its elements what one recursion over the tree
does, up to and including the first failure: an element gets its own look, then its box, and then
its children are decorated in order.
-/

namespace Changelog

/-- The box that the tag of an element asks for. -/
def boxOf? (tag : String) : Option String :=
  if headingTags.contains tag then
    match headingLevel tag with
    | .ok level => (HeadingLook.ofLevel level).box
    | .error _ => none
  else none

namespace Element

/-- An element with the look that its own tag asks for, without its box. -/
def restyled (stash : Stash) (e : Tree) : Attempt :=
  if headingTags.contains e.tag then
    match headingLevel e.tag with
    | .error err => (e, some err)
    | .ok level =>
      let look := HeadingLook.ofLevel level
      let classed := e.withClass look.classes
      if look.anchored then
        match Anchor.textOf stash e with
        | .error err => (classed, some (.text err))
        | .ok text => (classed.set "id" (Anchor.ofText text), none)
      else (classed, none)
  else if listTags.contains e.tag then (e.withClass listClass, none)
  else if e.tag = "li" then (e.withClass itemClass, none)
  else (e, none)

/-- An element in the given box, if there is one. -/
def inBox (box : Option String) (e : Tree) : Tree :=
  match box with
  | some classes => boxed classes e
  | none => e

mutual

/-- An element decorated with all that it holds, up to the first failure. -/
def decorateTree (stash : Stash) : Tree → Attempt
  | ⟨tag, attrs, text, tail, children⟩ =>
    match restyled stash ⟨tag, attrs, text, tail, children⟩ with
    | (own, some err) => (own, some err)
    | (own, none) =>
      let inside := decorateForest stash children
      (inBox (boxOf? tag) { own with children := inside.1 }, inside.2)

/-- Elements decorated one after the other, up to the first failure. -/
def decorateForest (stash : Stash) : List Tree → List Tree × Option DecorateError
  | [] => ([], none)
  | e :: es =>
    match decorateTree stash e with
    | (first, some err) => (first :: es, some err)
    | (first, none) =>
      let others := decorateForest stash es
      (first :: others.1, others.2)

end

/-! ### One element -/

theorem restyled_children (stash : Stash) (e : Tree) :
    (restyled stash e).1.children = e.children := by
  unfold restyled
  split
  · cases headingLevel e.tag with
    | error err => rfl
    | ok level =>
      dsimp only
      split
      · cases Anchor.textOf stash e with
        | error err => rfl
        | ok text => rfl
      · rfl
  · split
    · rfl
    · split
      · rfl
      · rfl

theorem isBoxed_eq (tag : String) : isBoxed tag = (boxOf? tag).isSome := by
  unfold isBoxed boxOf?
  cases headingTags.contains tag with
  | false => rfl
  | true =>
    cases headingLevel tag with
    | ok level => rfl
    | error err => rfl

theorem boxOf?_eq_none (tag : String) (h : headingTags.contains tag = false) :
    boxOf? tag = none := by
  simp only [boxOf?, h, Bool.false_eq_true, if_false]

end Element

open Element

theorem boxAt_eq (tree e : Tree) (a : Address) (classes : String) (ha : a ≠ []) :
    boxAt (tree.update (fun _ => e) a) a classes = tree.update (fun _ => boxed classes e) a := by
  rw [boxAt, if_neg ha, update_update]

theorem update_withClass (tree e : Tree) (a : Address) (classes : String)
    (he : tree.at? a = some e) :
    tree.update (withClass classes) a = tree.update (fun _ => e.withClass classes) a :=
  update_congr _ _ tree e a he rfl

/-- What decorating one element of a tree does to the tree. -/
theorem decorateAt_eq (stash : Stash) (tree e : Tree) (a : Address)
    (he : tree.at? a = some e) (hroot : a = [] → headingTags.contains e.tag = false) :
    decorateAt stash tree a =
      match restyled stash e with
      | (own, some err) => (tree.update (fun _ => own) a, some err)
      | (own, none) => (tree.update (fun _ => inBox (boxOf? e.tag) own) a, none) := by
  cases hh : headingTags.contains e.tag with
  | true =>
    have ha : a ≠ [] := by
      intro h
      rw [hroot h] at hh
      cases hh
    simp only [decorateAt, he, hh, if_true, if_neg ha, styleHeadingAt, restyled, boxOf?]
    cases hl : headingLevel e.tag with
    | error err =>
      dsimp only
      rw [update_self (fun _ => e) tree e a he rfl]
    | ok level =>
      dsimp only
      rw [update_withClass tree e a _ he]
      split
      · cases Anchor.textOf stash e with
        | error err => rfl
        | ok text =>
          dsimp only
          rw [update_update]
          cases (HeadingLook.ofLevel level).box with
          | none => rfl
          | some classes => exact congrArg (·, none) (boxAt_eq tree _ a classes ha)
      · cases (HeadingLook.ofLevel level).box with
        | none => rfl
        | some classes => exact congrArg (·, none) (boxAt_eq tree _ a classes ha)
  | false =>
    simp only [decorateAt, he, hh, Bool.false_eq_true, if_false, restyled, boxOf?_eq_none _ hh,
      styleListAt, styleItemAt, inBox]
    split
    · rw [update_withClass tree e a _ he]
    · split
      · rw [update_withClass tree e a _ he]
      · dsimp only
        rw [update_self (fun _ => e) tree e a he rfl]

/-! ### The walk -/

/-- The walk taken up again on a tree, unless it ended. -/
def resume (stash : Stash) (boxes later : List Address) (t : Tree) :
    Option DecorateError → Attempt
  | some err => (t, some err)
  | none => decorateAll stash t boxes later

/-- One step of the walk. -/
theorem decorateAll_cons (stash : Stash) (tree e : Tree) (boxes later : List Address)
    (p q : Address) (hq : Address.afterBoxes boxes p = q) (he : tree.at? q = some e)
    (hroot : q = [] → headingTags.contains e.tag = false) :
    decorateAll stash tree boxes (p :: later) =
      match restyled stash e with
      | (own, some err) => (tree.update (fun _ => own) q, some err)
      | (own, none) =>
        decorateAll stash (tree.update (fun _ => inBox (boxOf? e.tag) own) q)
          (boxes ++ if (boxOf? e.tag).isSome then [q] else []) later := by
  simp only [decorateAll, hq, decorateAt_eq stash tree e q he hroot, he, isBoxed_eq]
  cases restyled stash e with
  | mk own failure =>
    cases failure with
    | none => rfl
    | some err => rfl

/-- A child of a boxed element changed is a child of the element changed. -/
theorem update_boxed_child (tree own inner : Tree) (q : Address) (classes : String)
    (children : List Tree) (hi : inner = { own with tail := none, children := children }) :
    (tree.update (fun _ => boxed classes own) q).update (fun _ => inner) (q ++ [0]) =
      tree.update (fun _ => boxed classes { own with children := children }) q := by
  rw [update_append, update_update, hi]
  rfl

mutual

/-- The walk over a subtree decorates it as one recursion, and puts boxes into it alone. -/
theorem decorateAll_tree (stash : Stash) : ∀ (e tree : Tree) (boxes later : List Address)
    (p q : Address), tree.at? q = some e → Address.Carries boxes p q →
    (q = [] → headingTags.contains e.tag = false) →
    ∃ more : List Address, (∀ b ∈ more, q <+: b) ∧
      decorateAll stash tree boxes (addressesFrom p e ++ later) =
        resume stash (boxes ++ more) later
          (tree.update (fun _ => (decorateTree stash e).1) q) (decorateTree stash e).2
  | ⟨tag, attrs, text, tail, children⟩, tree, boxes, later, p, q, he, hc, hroot => by
    have hstep := decorateAll_cons stash tree _ boxes (childAddresses p 0 children ++ later) p q
      hc.root he hroot
    have hchildren := restyled_children stash ⟨tag, attrs, text, tail, children⟩
    simp only [addressesFrom, List.cons_append]
    rw [hstep]
    simp only [decorateTree]
    cases hr : restyled stash ⟨tag, attrs, text, tail, children⟩ with
    | mk own failure =>
      rw [hr] at hchildren
      dsimp only at hchildren ⊢
      cases failure with
      | some err => exact ⟨[], fun b hb => absurd hb (List.not_mem_nil), rfl⟩
      | none =>
        cases hb : boxOf? tag with
        | none =>
          have hown : (tree.update (fun _ => own) q).at? q = some own := by
            rw [at?_update, he]
            rfl
          obtain ⟨more, hmore, hwalk⟩ := decorateAll_forest stash children
            (tree.update (fun _ => own) q) own [] boxes later p q hown hchildren
            (fun j _ => hc.child j)
          refine ⟨more, hmore, ?_⟩
          rw [update_update] at hwalk
          simpa only [hb, inBox, Option.isSome_none, Bool.false_eq_true, if_false,
            List.append_nil, List.nil_append, List.length_nil] using hwalk
        | some classes =>
          have hown : (tree.update (fun _ => boxed classes own) q).at? (q ++ [0]) =
              some { own with tail := none } := by
            rw [at?_append, at?_update, he]
            rfl
          obtain ⟨more, hmore, hwalk⟩ := decorateAll_forest stash children
            (tree.update (fun _ => boxed classes own) q) { own with tail := none } []
            (boxes ++ [q]) later p (q ++ [0]) hown hchildren (fun j _ => hc.boxed j)
          refine ⟨q :: more, ?_, ?_⟩
          · intro b hm
            cases List.mem_cons.mp hm with
            | inl h => exact h ▸ List.prefix_refl b
            | inr h => exact (List.prefix_append q [0]).trans (hmore b h)
          · rw [update_boxed_child tree own _ q classes _ rfl] at hwalk
            simpa only [hb, inBox, Option.isSome_some, if_true, List.append_assoc,
              List.nil_append, List.cons_append, List.length_nil] using hwalk

/-- The walk over the children of an element from one of them on decorates these. -/
theorem decorateAll_forest (stash : Stash) : ∀ (es : List Tree) (tree parent : Tree)
    (pre : List Tree) (boxes later : List Address) (p q : Address),
    tree.at? q = some parent → parent.children = pre ++ es →
    (∀ j, pre.length ≤ j → Address.Carries boxes (p ++ [j]) (q ++ [j])) →
    ∃ more : List Address, (∀ b ∈ more, q <+: b) ∧
      decorateAll stash tree boxes (childAddresses p pre.length es ++ later) =
        resume stash (boxes ++ more) later
          (tree.update
            (fun _ => { parent with children := pre ++ (decorateForest stash es).1 }) q)
          (decorateForest stash es).2
  | [], tree, parent, pre, boxes, later, p, q, he, hchildren, hc => by
    refine ⟨[], fun b hb => absurd hb (List.not_mem_nil), ?_⟩
    obtain ⟨tag, attrs, text, tail, children⟩ := parent
    simp only [List.append_nil] at hchildren
    subst hchildren
    simp only [childAddresses, decorateForest, List.nil_append, List.append_nil, resume]
    rw [update_self (fun _ => _) tree _ q he rfl]
  | e :: es, tree, parent, pre, boxes, later, p, q, he, hchildren, hc => by
    have hlen : (pre ++ e :: es)[pre.length]? = some e := by simp
    have hchild : tree.at? (q ++ [pre.length]) = some e := by
      rw [at?_append, he, Option.bind_some, at?_cons, hchildren, hlen]
      rfl
    obtain ⟨more, hmore, hwalk⟩ := decorateAll_tree stash e tree boxes
      (childAddresses p (pre.length + 1) es ++ later) (p ++ [pre.length]) (q ++ [pre.length])
      hchild (hc _ (Nat.le_refl _)) (fun h => absurd h (List.append_ne_nil_of_right_ne_nil q
        (List.cons_ne_nil _ _)))
    have hplace : tree.update (fun _ => (decorateTree stash e).1) (q ++ [pre.length]) =
        tree.update
          (fun _ => { parent with children := pre ++ (decorateTree stash e).1 :: es }) q := by
      rw [update_append]
      apply update_congr _ _ tree parent q he
      rw [update_cons, hchildren, modify_length_append]
      rfl
    rw [hplace] at hwalk
    simp only [childAddresses, List.append_assoc]
    rw [hwalk]
    cases hd : decorateTree stash e with
    | mk first failure =>
      cases failure with
      | some err =>
        refine ⟨more, fun b hb => (List.prefix_append q _).trans (hmore b hb), ?_⟩
        simp only [decorateForest, hd, resume]
      | none =>
        have hown : (tree.update (fun _ => { parent with children := pre ++ first :: es }) q).at?
            q = some { parent with children := pre ++ first :: es } := by
          rw [at?_update, he]
          rfl
        have hcarry : ∀ j, (pre ++ [first]).length ≤ j →
            Address.Carries (boxes ++ more) (p ++ [j]) (q ++ [j]) := by
          intro j hj
          rw [List.length_append, List.length_singleton] at hj
          exact (hc j (by omega)).sibling hmore (by omega)
        obtain ⟨others, hothers, hrest⟩ := decorateAll_forest stash es
          (tree.update (fun _ => { parent with children := pre ++ first :: es }) q)
          { parent with children := pre ++ first :: es } (pre ++ [first]) (boxes ++ more) later
          p q hown (by simp) hcarry
        refine ⟨more ++ others, ?_, ?_⟩
        · intro b hb
          cases List.mem_append.mp hb with
          | inl h => exact (List.prefix_append q _).trans (hmore b h)
          | inr h => exact hothers b h
        · rw [update_update] at hrest
          simpa only [decorateForest, hd, resume, List.length_append, List.length_singleton,
            List.append_assoc, List.cons_append, List.nil_append] using hrest

end

/-- The decoration of a document is one recursion over it, unless its root is a heading. -/
theorem decorate_eq_decorateTree (stash : Stash) (tree : Tree)
    (h : headingTags.contains tree.tag = false) :
    decorate stash tree = decorateTree stash tree := by
  obtain ⟨more, -, hwalk⟩ := decorateAll_tree stash tree tree [] [] [] [] (at?_nil tree)
    (Address.carries_nil []) (fun _ => h)
  rw [List.append_nil, update_nil] at hwalk
  rw [decorate, addresses, hwalk]
  cases decorateTree stash tree with
  | mk decorated failure =>
    cases failure with
    | none => rfl
    | some err => rfl

end Changelog
