import Changelog.Proofs.Decoration.Undress

/-!
# Boxes taken off again

However often and in whatever order headings, lists and items of a tree are styled, boxes put in and
whole documents decorated, and whichever of these steps fail: all that comes in are boxes and the
two attributes of the styles.  The text of the document stays.
-/

namespace Changelog

open Element

/-- The attributes that no style sets. -/
def otherAttrs (attrs : List (String × Text)) : List (String × Text) :=
  attrs.filter fun a => a.1 != "class" && a.1 != "id"

/-- A tree is another one with boxes put in.  A box has no text and holds one element with nothing
after it; it stands for that element with the text after the box. -/
inductive Contracts : Tree → Tree → Prop
  | kept {now old : Tree} (tag : now.tag = old.tag)
      (attrs : otherAttrs now.attrs = otherAttrs old.attrs) (text : now.text = old.text)
      (tail : now.tail = old.tail) (length : now.children.length = old.children.length)
      (children : ∀ (i : Nat) (a b : Tree), now.children[i]? = some a →
        old.children[i]? = some b → Contracts a b) : Contracts now old
  | boxed {box inner old : Tree} (tag : box.tag = "div") (attrs : otherAttrs box.attrs = [])
      (text : box.text = none) (children : box.children = [inner]) (after : inner.tail = none)
      (inside : Contracts { inner with tail := box.tail } old) : Contracts box old

theorem Contracts.refl (tree : Tree) : Contracts tree tree := by
  cases tree with
  | mk tag attrs text tail children =>
    refine .kept rfl rfl rfl rfl rfl ?_
    intro i a b ha hb
    have hab : a = b := Option.some.inj (ha.symm.trans hb)
    have hsize : sizeOf a < sizeOf children := List.sizeOf_lt_of_mem (List.mem_of_getElem? ha)
    exact hab ▸ Contracts.refl a
termination_by sizeOf tree
decreasing_by
  simp only [Element.mk.sizeOf_spec]
  omega

/-! ### Changes at one address -/

/-- A change of an element that a contraction does not see, and that leaves its tail alone. -/
structure Unseen (f : Tree → Tree) : Prop where
  contracts : ∀ {now old : Tree}, Contracts now old → Contracts (f now) old
  tail : ∀ e t, f { e with tail := t } = { f e with tail := t }

theorem Unseen.set (name : String) (value : Text) (h : name = "class" ∨ name = "id") :
    Unseen fun e => e.set name value := by
  have hattrs : ∀ attrs, otherAttrs (setIn name value attrs) = otherAttrs attrs := by
    intro attrs
    apply filter_setIn fun name => name != "class" && name != "id"
    rcases h with rfl | rfl <;> decide
  refine ⟨fun hc => ?_, fun e t => rfl⟩
  cases hc with
  | kept tag attrs text tail length children =>
    exact .kept tag ((hattrs _).trans attrs) text tail length children
  | boxed tag attrs text children after inside =>
    exact .boxed tag ((hattrs _).trans attrs) text children after inside

theorem Unseen.boxed (classes : String) : Unseen (Element.boxed classes) := by
  refine ⟨fun {now old} hc => ?_, fun e t => rfl⟩
  obtain ⟨tag, attrs, text, tail, children⟩ := now
  exact .boxed rfl rfl rfl rfl rfl hc

theorem Unseen.child {f : Tree → Tree} (hf : Unseen f) (i : Nat) :
    Unseen fun e => { e with children := e.children.modify i f } := by
  refine ⟨fun {now old} hc => ?_, fun e t => rfl⟩
  cases hc with
  | kept tag attrs text tail length children =>
    refine .kept tag attrs text tail ((List.length_modify ..).trans length) ?_
    intro j a b ha hb
    dsimp only at ha
    rw [List.getElem?_modify] at ha
    obtain ⟨c, hc, rfl⟩ := Option.map_eq_some_iff.mp ha
    have hchild : Contracts c b := children j c b hc hb
    by_cases hij : i = j
    · rw [if_pos hij]
      exact hf.contracts hchild
    · rwa [if_neg hij]
  | @boxed _ inner _ tag attrs text children after inside =>
    cases i with
    | zero =>
      have hinner : f { inner with tail := now.tail } = { f inner with tail := now.tail } :=
        hf.tail inner now.tail
      have hafter : (f inner).tail = none := by
        obtain ⟨t, as, cs, _, es⟩ := inner
        dsimp only at after
        subst after
        exact congrArg Element.tail (hf.tail ⟨t, as, cs, none, es⟩ none)
      refine .boxed tag attrs text (by simp [children]) hafter ?_
      rw [← hinner]
      exact hf.contracts inside
    | succ i => exact .boxed tag attrs text (by simp [children]) after inside

theorem Unseen.update {f : Tree → Tree} (hf : Unseen f) (a : Address) :
    Unseen fun e => e.update f a := by
  induction a with
  | nil => exact hf
  | cons i a ih => exact ih.child i

/-! ### Steps -/

theorem Contracts.styleListAt {now old : Tree} (h : Contracts now old) (a : Address) :
    Contracts (styleListAt now a) old :=
  ((Unseen.set "class" _ (.inl rfl)).update a).contracts h

theorem Contracts.styleItemAt {now old : Tree} (h : Contracts now old) (a : Address) :
    Contracts (styleItemAt now a) old :=
  ((Unseen.set "class" _ (.inl rfl)).update a).contracts h

theorem Contracts.boxAt {now old : Tree} (h : Contracts now old) (a : Address)
    (classes : String) : Contracts (boxAt now a classes) old := by
  unfold Changelog.boxAt
  split
  · exact h
  · exact ((Unseen.boxed classes).update a).contracts h

theorem Contracts.styleHeadingAt (stash : Stash) {now old : Tree} (h : Contracts now old)
    (a : Address) : Contracts (styleHeadingAt stash now a).1 old := by
  have hclass (classes : String) : Contracts (now.update (withClass classes) a) old :=
    ((Unseen.set "class" _ (.inl rfl)).update a).contracts h
  unfold Changelog.styleHeadingAt
  cases now.at? a with
  | none => exact h
  | some heading =>
    dsimp -zeta only
    cases headingLevel heading.tag with
    | error e => exact h
    | ok level =>
      dsimp -zeta only
      extract_lets look classed box
      have hbox (t : Tree) (ht : Contracts t old) : Contracts (box t) old := by
        unfold box
        split
        · exact ht.boxAt a _
        · exact ht
      split
      · cases Anchor.textOf stash heading with
        | error e => exact hclass _
        | ok text => exact hbox _ (((Unseen.set "id" _ (.inr rfl)).update a).contracts (hclass _))
      · exact hbox _ (hclass _)

theorem Contracts.decorateAt (stash : Stash) {now old : Tree} (h : Contracts now old)
    (a : Address) : Contracts (decorateAt stash now a).1 old := by
  unfold Changelog.decorateAt
  cases now.at? a with
  | none => exact h
  | some e =>
    dsimp only
    repeat' split
    · exact h
    · exact h.styleHeadingAt stash a
    · exact h.styleListAt a
    · exact h.styleItemAt a
    · exact h

theorem Contracts.decorateAll (stash : Stash) {now old : Tree} (h : Contracts now old)
    (boxes later : List Address) : Contracts (decorateAll stash now boxes later).1 old := by
  induction later generalizing now boxes with
  | nil => exact h
  | cons first later ih =>
    have hfirst := h.decorateAt stash (Address.afterBoxes boxes first)
    simp only [Changelog.decorateAll]
    cases hd : Changelog.decorateAt stash now (Address.afterBoxes boxes first) with
    | mk changed failure =>
      rw [hd] at hfirst
      cases failure with
      | some e => exact hfirst
      | none => exact ih hfirst _

/-! ### Texts -/

theorem innerTextAll_congr (es fs : List Tree) (hlength : es.length = fs.length)
    (h : ∀ (i : Nat) (a b : Tree), es[i]? = some a → fs[i]? = some b →
      a.innerText = b.innerText ∧ a.tail = b.tail) : innerTextAll es = innerTextAll fs := by
  induction es generalizing fs with
  | nil =>
    cases fs with
    | nil => rfl
    | cons f fs => simp at hlength
  | cons e es ih =>
    cases fs with
    | nil => simp at hlength
    | cons f fs =>
      obtain ⟨htext, htail⟩ := h 0 e f rfl rfl
      have hrest := ih fs (by simpa using hlength) fun i a b ha hb => h (i + 1) a b ha hb
      simp only [innerTextAll, htext, htail, hrest]

theorem Contracts.texts {now old : Tree} (h : Contracts now old) :
    now.innerText = old.innerText ∧ now.tail = old.tail := by
  induction h with
  | @kept now old tag attrs text tail length children ih =>
    have hall := innerTextAll_congr _ _ length ih
    obtain ⟨_, _, _, _, _⟩ := now
    obtain ⟨_, _, _, _, _⟩ := old
    dsimp only at text hall
    refine ⟨?_, tail⟩
    simp only [innerText, text, hall]
  | @boxed box inner old tag attrs text children after inside ih =>
    obtain ⟨_, _, _, _, _⟩ := box
    obtain ⟨_, _, _, _, _⟩ := inner
    dsimp only at text children after ih
    refine ⟨?_, ih.2⟩
    rw [← ih.1]
    simp [innerText, innerTextAll, text, children, after]

/-! ### Sequences of steps -/

/-- A step on a tree.  The decoration takes the whole of it, the others the element at an
address. -/
inductive TreeStep
  | decorate
  | heading (address : Address)
  | list (address : Address)
  | item (address : Address)
  | box (address : Address) (classes : String)

def TreeStep.take (stash : Stash) (tree : Tree) : TreeStep → Attempt
  | .decorate => Changelog.decorate stash tree
  | .heading address => styleHeadingAt stash tree address
  | .list address => (styleListAt tree address, none)
  | .item address => (styleItemAt tree address, none)
  | .box address classes => (boxAt tree address classes, none)

/-- What each of some steps answers; a step that fails is followed by the next one. -/
def attempts (stash : Stash) (tree : Tree) : List TreeStep → List Attempt
  | [] => []
  | step :: later =>
    step.take stash tree :: attempts stash (step.take stash tree).1 later

theorem Contracts.take (stash : Stash) {now old : Tree} (h : Contracts now old)
    (step : TreeStep) : Contracts (step.take stash now).1 old := by
  cases step with
  | decorate => exact h.decorateAll stash [] _
  | heading a => exact h.styleHeadingAt stash a
  | list a => exact h.styleListAt a
  | item a => exact h.styleItemAt a
  | box a classes => exact h.boxAt a classes

theorem Contracts.attempts (stash : Stash) {now old : Tree} (h : Contracts now old)
    (steps : List TreeStep) : ∀ r ∈ attempts stash now steps, Contracts r.1 old := by
  induction steps generalizing now with
  | nil =>
    intro r hr
    cases hr
  | cons step later ih =>
    have hstep := h.take stash step
    intro r hr
    cases hr with
    | head => exact hstep
    | tail _ hr => exact ih hstep r hr

theorem attempts_length (stash : Stash) (tree : Tree) (steps : List TreeStep) :
    (attempts stash tree steps).length = steps.length := by
  induction steps generalizing tree with
  | nil => rfl
  | cons step later ih => simp [attempts, ih]

/-- After each of any steps, failed or not, the tree is the one they began with but for boxes and
styled attributes, and its text is the same. -/
theorem attempts_contract (stash : Stash) (tree : Tree) (steps : List TreeStep) :
    (attempts stash tree steps).length = steps.length ∧
      ∀ r ∈ attempts stash tree steps, Contracts r.1 tree ∧ r.1.innerText = tree.innerText := by
  refine ⟨attempts_length stash tree steps, ?_⟩
  intro r hr
  have hc : Contracts r.1 tree := (Contracts.refl tree).attempts stash steps r hr
  exact ⟨hc, hc.texts.1⟩

/-- A boxed heading in one more box, and then a box taken for a heading. -/
theorem attempts_contract_boxTwice :
    ∃ now : Tree, now.children.map (·.children.map (·.children.map (·.tag))) = [[["h2"]]] ∧
      (now, some (DecorateError.level 'i')) ∈ attempts (Stash.ofList ["<b>".toList])
        nestedHeadings [.decorate, .box [0, 0] "x", .heading [0], .decorate] ∧
      Contracts now nestedHeadings ∧ now.innerText = nestedHeadings.innerText := by
  have hm : (boxAt (decorate (Stash.ofList ["<b>".toList]) nestedHeadings).1 [0, 0] "x",
      some (DecorateError.level 'i')) ∈ attempts (Stash.ofList ["<b>".toList]) nestedHeadings
        [.decorate, .box [0, 0] "x", .heading [0], .decorate] :=
    .tail _ (.tail _ (.head _))
  exact ⟨_, by rfl, hm, (attempts_contract _ _ _).2 _ hm⟩

end Changelog
