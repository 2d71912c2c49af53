import Changelog.Proofs.Decoration.Contraction
import Mathlib.Data.List.InsertIdx

/-!
# One box

A box is put in by taking the element out from among its siblings and putting the box in at the
index where it was.  This is a change at one address: everything below it moves one step down, the
rest of the document stays, and taking the box off again gives the tree as it was.  The element is
looked up as itself, so siblings that look like it are left where they are.
-/

namespace Changelog

open Element

/-- The one child of an element in its place, with the tail of the element. -/
def Element.opened (e : Tree) : Tree :=
  match e.children with
  | [inner] => { inner with tail := e.tail }
  | _ => e

/-- Siblings, each with what it is known by. -/
abbrev Siblings (ι : Type) := List (ι × Tree)

/-- The element known as `own` looked up, taken out, and put into a box that stands at its index. -/
def Siblings.wrap {ι : Type} [DecidableEq ι] (own box : ι) (classes : String)
    (siblings : Siblings ι) : Option (Siblings ι) :=
  let index := siblings.findIdx (·.1 == own)
  siblings[index]?.map fun found =>
    (siblings.eraseP (·.1 == own)).insertIdx index (box, Element.boxed classes found.2)

namespace Siblings

variable {ι : Type} [DecidableEq ι] {own box : ι} {classes : String} {e : Tree}

theorem wrap_here (later : Siblings ι) :
    wrap own box classes ((own, e) :: later) = some ((box, Element.boxed classes e) :: later) := by
  simp [wrap, List.findIdx_cons]

theorem wrap_later {first : ι × Tree} (h : first.1 ≠ own) (later : Siblings ι) :
    wrap own box classes (first :: later) = (wrap own box classes later).map (first :: ·) := by
  have hown : (first.1 == own) = false := beq_false_of_ne h
  simp [wrap, List.findIdx_cons, hown, Function.comp_def]

/-- Of siblings known by different things exactly the one that is meant gives way to its box. -/
theorem wrap_eq {siblings : Siblings ι} {k : Nat} (hd : (siblings.map Prod.fst).Nodup)
    (h : siblings[k]? = some (own, e)) :
    wrap own box classes siblings = some (siblings.set k (box, Element.boxed classes e)) := by
  induction siblings generalizing k with
  | nil => cases h
  | cons first later ih =>
    rw [List.map_cons, List.nodup_cons] at hd
    cases k with
    | zero =>
      have hfirst : first = (own, e) := Option.some.inj h
      rw [hfirst, wrap_here, List.set_cons_zero]
    | succ k =>
      rw [List.getElem?_cons_succ] at h
      have hown : own ∈ later.map Prod.fst := List.mem_map_of_mem (List.mem_of_getElem? h)
      have hne : first.1 ≠ own := fun hf => hd.1 (hf ▸ hown)
      rw [wrap_later hne, ih hd.2 h, List.set_cons_succ]
      rfl

end Siblings

/-- The tree `now` is the tree `old` with the element `e` at an address put into a box. -/
structure BoxedAt (old now e : Tree) (place : Address) (classes : String) : Prop where
  /-- The box has the tail of the element. -/
  box : now.at? place =
    some ⟨"div", [("class", classes.toList)], none, e.tail, [{ e with tail := none }]⟩
  inside : now.at? (place ++ [0]) = some { e with tail := none }
  below : ∀ s, s ≠ [] → now.at? (place ++ [0] ++ s) = old.at? (place ++ s)
  others : ∀ a, ¬place <+: a → (now.at? a).map outline = (old.at? a).map outline
  /-- Where the address of the box does not go through, whole subtrees stay. -/
  beside : ∀ a, ¬place <+: a → ¬a <+: place → now.at? a = old.at? a
  texts : ∀ a, a <+: place → a ≠ place →
    (now.at? a).map innerText = (old.at? a).map innerText
  restored : now.update opened place = old

theorem opened_boxed (classes : String) (e : Tree) : opened (Element.boxed classes e) = e := by
  cases e with
  | mk tag attrs text tail children => rfl

theorem innerText_update_boxed (classes : String) (e : Tree) (a : Address) :
    (e.update (Element.boxed classes) a).innerText = e.innerText := by
  have hcontracts := ((Unseen.boxed classes).update a).contracts (Contracts.refl e)
  exact hcontracts.texts.1

theorem boxedAt_update {tree e : Tree} {place : Address} (he : tree.at? place = some e)
    (classes : String) :
    BoxedAt tree (tree.update (Element.boxed classes) place) e place classes := by
  have hbox : (tree.update (Element.boxed classes) place).at? place =
      some (Element.boxed classes e) := by
    rw [at?_update, he]
    rfl
  have hbelow (s : Address) : (tree.update (Element.boxed classes) place).at? (place ++ [0] ++ s) =
      Element.at? { e with tail := none } s := by
    rw [List.append_assoc, at?_append, hbox]
    rfl
  refine ⟨hbox, ?_, ?_, ?_, ?_, ?_, ?_⟩
  · exact (congrArg _ (List.append_nil _).symm).trans (hbelow [])
  · intro s hs
    obtain ⟨i, s, rfl⟩ := List.exists_cons_of_ne_nil hs
    rw [hbelow, at?_append, he]
    rfl
  · exact fun a ha => at?_update_outline _ tree ha
  · exact fun a ha hup => at?_update_beside _ tree ha hup
  · rintro a ⟨s, rfl⟩ -
    rw [at?_update_above]
    cases tree.at? a with
    | none => rfl
    | some x => exact congrArg some (innerText_update_boxed classes x s)
  · rw [update_update]
    exact update_self _ tree e place he (opened_boxed classes e)

/-- Putting the child at an index into a box is a change at its address that can be undone, and it
is what looking the child up among its siblings, taking it out and putting the box in does. -/
theorem boxAt_local (tree e : Tree) (above : Address) (k : Nat) (classes : String)
    (he : tree.at? (above ++ [k]) = some e) :
    BoxedAt tree (boxAt tree (above ++ [k]) classes) e (above ++ [k]) classes ∧
      ∀ (ι : Type) [DecidableEq ι] (siblings : Siblings ι) (own box : ι) (parent : Tree),
        tree.at? above = some parent → parent.children = siblings.map Prod.snd →
        (siblings.map Prod.fst).Nodup → siblings[k]? = some (own, e) →
        ∃ after, siblings.wrap own box classes = some after ∧
          after.map Prod.fst = (siblings.map Prod.fst).set k box ∧
          boxAt tree (above ++ [k]) classes =
            tree.update (fun p => { p with children := after.map Prod.snd }) above := by
  have hroot : boxAt tree (above ++ [k]) classes =
      tree.update (Element.boxed classes) (above ++ [k]) :=
    if_neg (by simp)
  rw [hroot]
  refine ⟨boxedAt_update he classes, ?_⟩
  intro ι _ siblings own box parent hparent hchildren hd hown
  refine ⟨_, Siblings.wrap_eq hd hown, by rw [List.map_set], ?_⟩
  have hk : (siblings.map Prod.snd)[k]? = some e := by simp [hown]
  rw [update_append]
  apply update_congr _ _ tree parent above hparent
  rw [update_cons, hchildren, List.map_set, List.modify_eq_set, hk]
  rfl

/-- A heading with text after it. -/
def twin : Tree :=
  ⟨"h2", [], some "1.".toList, some "\n".toList, [⟨"em", [], some "0".toList, some "!".toList, []⟩]⟩

/-- Three headings that look alike in a quotation, with text before and after it. -/
def twins : Tree :=
  ⟨"div", [], none, none, [⟨"hr", [], none, none, []⟩,
    ⟨"blockquote", [], some "\n".toList, some "end".toList, [twin, twin, twin]⟩]⟩

theorem boxAt_local_twins :
    twins.at? ([1] ++ [1]) = some twin ∧
      BoxedAt twins (boxAt twins ([1] ++ [1]) "mb-8") twin ([1] ++ [1]) "mb-8" ∧
      ∃ after, Siblings.wrap 8 6 "mb-8" [(5, twin), (8, twin), (7, twin)] = some after ∧
        after.map Prod.fst = [5, 6, 7] ∧
        boxAt twins ([1] ++ [1]) "mb-8" =
          twins.update (fun p => { p with children := after.map Prod.snd }) [1] := by
  have htwin : twins.at? ([1] ++ [1]) = some twin := rfl
  obtain ⟨hboxed, hsiblings⟩ := boxAt_local twins twin [1] 1 "mb-8" htwin
  exact ⟨htwin, hboxed, hsiblings Nat [(5, twin), (8, twin), (7, twin)] 8 6 _ rfl rfl
    (by decide) rfl⟩

end Changelog
