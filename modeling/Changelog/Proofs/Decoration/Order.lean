import Changelog.Proofs.Decoration.Reference

/-!
# Decoration in any order

`dressedAt` is a tree of which some elements are decorated and others are not yet, and `placeAt` is
where an element is found in it.  Whatever was decorated before, an element still has its text, its
attributes and its parent, so that decorating it leads to the next of these trees.  The tree at the
end depends on the elements that were decorated, and not on their order.
-/

namespace Changelog

namespace Element

/-! ### Addresses in document order -/

mutual

theorem at?_of_mem_addressesFrom (trail : Address) : ∀ (e : Tree) (a : Address),
    a ∈ addressesFrom trail e → ∃ b x, a = trail ++ b ∧ e.at? b = some x
  | ⟨tag, attrs, text, tail, children⟩, a, h => by
    rcases List.mem_cons.mp h with rfl | h
    · exact ⟨[], _, (List.append_nil _).symm, rfl⟩
    · obtain ⟨j, b, x, c, hc, hx, ha⟩ := at?_of_mem_childAddresses trail children 0 a h
      refine ⟨j :: b, x, by rw [ha, Nat.zero_add], ?_⟩
      rw [at?_cons, hc]
      exact hx

theorem at?_of_mem_childAddresses (trail : Address) : ∀ (es : List Tree) (i : Nat) (a : Address),
    a ∈ childAddresses trail i es →
    ∃ j b x c, es[j]? = some c ∧ c.at? b = some x ∧ a = trail ++ (i + j) :: b
  | [], _, _, h => nomatch h
  | e :: es, i, a, h => by
    rcases List.mem_append.mp h with h | h
    · obtain ⟨b, x, ha, hx⟩ := at?_of_mem_addressesFrom (trail ++ [i]) e a h
      refine ⟨0, b, x, e, rfl, hx, ?_⟩
      rw [ha, List.append_assoc]
      rfl
    · obtain ⟨j, b, x, c, hc, hx, ha⟩ := at?_of_mem_childAddresses trail es (i + 1) a h
      refine ⟨j + 1, b, x, c, hc, hx, ?_⟩
      rw [ha, Nat.add_assoc, Nat.add_comm 1 j]

end

mutual

theorem nodup_addressesFrom (trail : Address) : ∀ e : Tree, (addressesFrom trail e).Nodup
  | ⟨tag, attrs, text, tail, children⟩ => by
    refine List.nodup_cons.mpr ⟨fun h => ?_, nodup_childAddresses trail children 0⟩
    obtain ⟨j, b, x, c, -, -, ha⟩ := at?_of_mem_childAddresses trail children 0 trail h
    have hlen := congrArg List.length ha
    rw [List.length_append, List.length_cons] at hlen
    omega

theorem nodup_childAddresses (trail : Address) : ∀ (es : List Tree) (i : Nat),
    (childAddresses trail i es).Nodup
  | [], _ => List.nodup_nil
  | e :: es, i => by
    refine List.nodup_append.mpr
      ⟨nodup_addressesFrom (trail ++ [i]) e, nodup_childAddresses trail es (i + 1), ?_⟩
    intro a ha b hb hab
    obtain ⟨a', -, ha', -⟩ := at?_of_mem_addressesFrom (trail ++ [i]) e a ha
    obtain ⟨j, b', -, -, -, -, hb'⟩ := at?_of_mem_childAddresses trail es (i + 1) b hb
    rw [ha', hb', List.append_assoc, List.append_cancel_left_eq, List.cons_append] at hab
    have hi : i = i + 1 + j := (List.cons.inj hab).1
    omega

end

theorem mem_childAddresses {trail : Address} {c : Tree} {a : Address} (es : List Tree) (i j : Nat)
    (hc : es[j]? = some c) (ha : a ∈ addressesFrom (trail ++ [i + j]) c) :
    a ∈ childAddresses trail i es := by
  induction es generalizing i j with
  | nil => cases hc
  | cons e es ih =>
    cases j with
    | zero =>
      cases hc
      exact List.mem_append_left _ ha
    | succ j =>
      rw [← Nat.add_assoc, Nat.add_right_comm] at ha
      exact List.mem_append_right _ (ih (i + 1) j hc ha)

theorem mem_addressesFrom {e x : Tree} (trail : Address) {a : Address} (h : e.at? a = some x) :
    trail ++ a ∈ addressesFrom trail e := by
  have hunfold (e : Tree) (trail : Address) :
      addressesFrom trail e = trail :: childAddresses trail 0 e.children := by
    cases e with
    | mk tag attrs text tail children => rfl
  induction a generalizing e trail with
  | nil =>
    rw [List.append_nil, hunfold]
    exact List.mem_cons_self
  | cons i a ih =>
    rw [at?_cons] at h
    obtain ⟨c, hc, hcx⟩ := Option.bind_eq_some_iff.mp h
    rw [hunfold]
    refine List.mem_cons_of_mem _ (mem_childAddresses e.children 0 i hc ?_)
    rw [Nat.zero_add, List.append_cons trail i a]
    exact ih (trail ++ [i]) hcx

mutual

/-- In document order an element stands before all that it holds. -/
theorem pairwise_addressesFrom (trail : Address) : ∀ e : Tree,
    (addressesFrom trail e).Pairwise fun a b => ¬b <+: a
  | ⟨tag, attrs, text, tail, children⟩ => by
    refine List.pairwise_cons.mpr ⟨fun b hb hp => ?_, pairwise_childAddresses trail children 0⟩
    obtain ⟨j, b', x, c, -, -, rfl⟩ := at?_of_mem_childAddresses trail children 0 b hb
    have hlen := hp.length_le
    rw [List.length_append, List.length_cons] at hlen
    omega

theorem pairwise_childAddresses (trail : Address) : ∀ (es : List Tree) (i : Nat),
    (childAddresses trail i es).Pairwise fun a b => ¬b <+: a
  | [], _ => List.Pairwise.nil
  | e :: es, i => by
    refine List.pairwise_append.mpr
      ⟨pairwise_addressesFrom (trail ++ [i]) e, pairwise_childAddresses trail es (i + 1), ?_⟩
    intro a ha b hb hp
    obtain ⟨a', -, rfl, -⟩ := at?_of_mem_addressesFrom (trail ++ [i]) e a ha
    obtain ⟨j, b', -, -, -, -, rfl⟩ := at?_of_mem_childAddresses trail es (i + 1) b hb
    rw [List.append_assoc, List.prefix_append_right_inj, List.singleton_append,
      List.cons_prefix_cons] at hp
    omega

end

/-! ### Trees decorated in part -/

mutual

/-- A tree of which the elements are decorated whose first addresses are `done`. -/
def dressedAt (stash : Stash) (done : Address → Bool) : Tree → Tree
  | ⟨tag, attrs, text, tail, children⟩ =>
    if done [] then
      let own : Tree := { marked stash ⟨tag, attrs, text, tail, children⟩ with
        children := dressedAtAll stash done 0 children }
      if tag = "h2" then boxed "mb-8" own else own
    else ⟨tag, attrs, text, tail, dressedAtAll stash done 0 children⟩

/-- The same for children of an element, the first of which has index `i`. -/
def dressedAtAll (stash : Stash) (done : Address → Bool) (i : Nat) : List Tree → List Tree
  | [] => []
  | e :: es => dressedAt stash (fun a => done (i :: a)) e :: dressedAtAll stash done (i + 1) es

end

/-- Where the element with a first address is found in a tree decorated in part. -/
def placeAt (done : Address → Bool) (e : Tree) : Address → Address
  | [] => if done [] = true ∧ e.tag = "h2" then [0] else []
  | i :: a =>
    (if done [] = true ∧ e.tag = "h2" then [0] else []) ++ i :: match e.children[i]? with
      | some c => placeAt (fun b => done (i :: b)) c a
      | none => a

variable {stash : Stash} {done : Address → Bool}

theorem getElem?_dressedAtAll (es : List Tree) (i j : Nat) :
    (dressedAtAll stash done i es)[j]? =
      es[j]?.map (dressedAt stash fun a => done ((i + j) :: a)) := by
  induction es generalizing i j with
  | nil => rfl
  | cons e es ih =>
    cases j with
    | zero => rfl
    | succ j =>
      have hnext := ih (i + 1) j
      rw [Nat.add_assoc, Nat.add_comm 1 j] at hnext
      exact hnext

theorem dressedAt_of_not (e : Tree) (h : done [] = false) :
    dressedAt stash done e = { e with children := dressedAtAll stash done 0 e.children } := by
  obtain ⟨tag, attrs, text, tail, children⟩ := e
  rw [dressedAt, h, if_neg Bool.false_ne_true]

mutual

theorem dressedAt_nothing (stash : Stash) : ∀ (e : Tree) (done : Address → Bool),
    (∀ a, done a = false) → dressedAt stash done e = e
  | ⟨tag, attrs, text, tail, children⟩, done, h => by
    rw [dressedAt_of_not _ (h []), dressedAtAll_nothing stash children done 0 h]

theorem dressedAtAll_nothing (stash : Stash) : ∀ (es : List Tree) (done : Address → Bool)
    (i : Nat), (∀ a, done a = false) → dressedAtAll stash done i es = es
  | [], _, _, _ => rfl
  | e :: es, done, i, h => by
    rw [dressedAtAll, dressedAt_nothing stash e _ fun a => h (i :: a),
      dressedAtAll_nothing stash es done (i + 1) h]

end

theorem placeAt_nothing (e : Tree) (a : Address) (h : ∀ a, done a = false) :
    placeAt done e a = a := by
  induction a generalizing e done with
  | nil => rw [placeAt, h []]; rfl
  | cons i a ih =>
    rw [placeAt, h []]
    cases e.children[i]? with
    | none => rfl
    | some c => exact congrArg (i :: ·) (ih c fun b => h (i :: b))

mutual

/-- Boxes and looks change no text: a box takes the tail of the heading that it holds. -/
theorem innerText_dressedAt (stash : Stash) : ∀ (e : Tree) (done : Address → Bool),
    (dressedAt stash done e).innerText = e.innerText ∧ (dressedAt stash done e).tail = e.tail
  | ⟨tag, attrs, text, tail, children⟩, done => by
    have hinside := innerTextAll_dressedAt stash children done 0
    have hmarked : (marked stash ⟨tag, attrs, text, tail, children⟩).text = text ∧
        (marked stash ⟨tag, attrs, text, tail, children⟩).tail = tail := by
      unfold marked
      split
      · exact ⟨rfl, rfl⟩
      · split
        · exact ⟨rfl, rfl⟩
        · exact ⟨rfl, rfl⟩
    rw [dressedAt]
    generalize marked stash ⟨tag, attrs, text, tail, children⟩ = own at hmarked
    obtain ⟨rfl, rfl⟩ := hmarked
    split
    · dsimp only
      split
      · refine ⟨?_, rfl⟩
        simp only [boxed, innerText, innerTextAll, hinside, Option.getD_none, List.nil_append,
          List.append_nil]
      · refine ⟨?_, rfl⟩
        simp only [innerText, hinside]
    · refine ⟨?_, rfl⟩
      simp only [innerText, hinside]

theorem innerTextAll_dressedAt (stash : Stash) : ∀ (es : List Tree) (done : Address → Bool)
    (i : Nat), innerTextAll (dressedAtAll stash done i es) = innerTextAll es
  | [], _, _ => rfl
  | e :: es, done, i => by
    obtain ⟨htext, htail⟩ := innerText_dressedAt stash e fun a => done (i :: a)
    rw [dressedAtAll, innerTextAll, innerTextAll, htext, htail,
      innerTextAll_dressedAt stash es done (i + 1)]

end

/-- An element that is not decorated yet is found at its place, with what it holds decorated in
part. -/
theorem at?_dressedAt {tree e : Tree} {a : Address} (he : tree.at? a = some e)
    (ha : done a = false) :
    (dressedAt stash done tree).at? (placeAt done tree a) =
      some (dressedAt stash (fun b => done (a ++ b)) e) := by
  induction a generalizing tree done with
  | nil =>
    cases he
    rw [placeAt, ha, if_neg (fun h => Bool.false_ne_true h.1)]
    rfl
  | cons i a ih =>
    rw [at?_cons] at he
    obtain ⟨c, hc, hce⟩ := Option.bind_eq_some_iff.mp he
    have hchild := @ih (fun b => done (i :: b)) c hce ha
    have hget : (dressedAtAll stash done 0 tree.children)[i]? =
        some (dressedAt stash (fun b => done (i :: b)) c) := by
      rw [getElem?_dressedAtAll, hc, Nat.zero_add]
      rfl
    obtain ⟨tag, attrs, text, tail, children⟩ := tree
    dsimp only at hc hget
    rw [placeAt, dressedAt]
    dsimp only
    rw [hc]
    by_cases hd : done [] = true
    · by_cases h2 : tag = "h2"
      · simp only [hd, h2, and_self, if_true, List.cons_append, List.nil_append, at?_cons, boxed,
          List.getElem?_cons_zero, Option.bind_some, hget]
        exact hchild
      · simp only [hd, h2, and_false, if_true, if_false, List.nil_append, at?_cons, hget,
          Option.bind_some]
        exact hchild
    · simp only [hd, Bool.false_eq_true, false_and, if_false, List.nil_append, at?_cons, hget,
        Option.bind_some]
      exact hchild

/-- The place of an element that is not decorated yet is below the place of its parent. -/
theorem placeAt_child {tree e : Tree} {p : Address} {i : Nat} (he : tree.at? (p ++ [i]) = some e)
    (ha : done (p ++ [i]) = false) :
    placeAt done tree (p ++ [i]) = placeAt done tree p ++ [i] := by
  induction p generalizing tree done with
  | nil =>
    rw [List.nil_append, at?_cons] at he
    obtain ⟨c, hc, -⟩ := Option.bind_eq_some_iff.mp he
    rw [List.nil_append] at ha
    have hown : placeAt (fun b => done (i :: b)) c [] = [] := by
      rw [placeAt, ha, if_neg (fun h => Bool.false_ne_true h.1)]
    show placeAt done tree [i] = placeAt done tree [] ++ [i]
    simp only [placeAt.eq_2, placeAt.eq_1 done tree, hc, hown]
  | cons j p ih =>
    rw [List.cons_append, at?_cons] at he
    obtain ⟨c, hc, hce⟩ := Option.bind_eq_some_iff.mp he
    rw [List.cons_append, placeAt, placeAt, hc]
    dsimp only
    rw [@ih (fun b => done (j :: b)) c hce ha, List.append_assoc, List.cons_append]

/-! ### One more element -/

/-- The elements that are decorated after the one at `a` is. -/
def withDone (done : Address → Bool) (a : Address) : Address → Bool :=
  fun b => done b || b == a

theorem withDone_cons (i : Nat) (a : Address) :
    (fun b => withDone done (i :: a) (i :: b)) = withDone (fun b => done (i :: b)) a := by
  funext b
  simp only [withDone, List.cons_beq_cons, beq_self_eq_true, Bool.true_and]

theorem withDone_other {i j : Nat} (a : Address) (h : j ≠ i) :
    (fun b => withDone done (i :: a) (j :: b)) = fun b => done (j :: b) := by
  funext b
  have hne : ((j :: b) == (i :: a)) = false :=
    beq_false_of_ne fun heq => h (List.cons.inj heq).1
  simp only [withDone, hne, Bool.or_false]

theorem withDone_nil (i : Nat) (a : Address) : withDone done (i :: a) [] = done [] := by
  simp only [withDone, List.nil_beq_eq, List.isEmpty_cons, Bool.or_false]

theorem dressedAtAll_congr {done' : Address → Bool} (es : List Tree) (i : Nat)
    (h : ∀ j b, i ≤ j → done' (j :: b) = done (j :: b)) :
    dressedAtAll stash done' i es = dressedAtAll stash done i es := by
  induction es generalizing i with
  | nil => rfl
  | cons e es ih =>
    rw [dressedAtAll, dressedAtAll, ih (i + 1) fun j b hj => h j b (by omega),
      funext fun b => h i b (Nat.le_refl i)]

/-- Decorating the element at its place decorates one more element of the tree. -/
theorem update_dressedAt {tree e : Tree} {a : Address} (he : tree.at? a = some e)
    (ha : done a = false) :
    (dressedAt stash done tree).update
        (fun _ => dressedAt stash (fun b => withDone done a (a ++ b)) e) (placeAt done tree a) =
      dressedAt stash (withDone done a) tree := by
  induction a generalizing tree done with
  | nil =>
    cases he
    rw [placeAt, ha, if_neg (fun h => Bool.false_ne_true h.1)]
    rfl
  | cons i a ih =>
    rw [at?_cons] at he
    obtain ⟨c, hc, hce⟩ := Option.bind_eq_some_iff.mp he
    have hchild := @ih (fun b => done (i :: b)) c hce ha
    rw [← withDone_cons] at hchild
    obtain ⟨tag, attrs, text, tail, children⟩ := tree
    dsimp only at hc
    have hinside : (dressedAtAll stash done 0 children).modify i
        (fun child => child.update (fun _ => dressedAt stash
          (fun b => withDone done (i :: a) (i :: a ++ b)) e)
          (placeAt (fun b => done (i :: b)) c a)) =
        dressedAtAll stash (withDone done (i :: a)) 0 children := by
      apply List.ext_getElem?
      intro j
      rw [List.getElem?_modify, getElem?_dressedAtAll, getElem?_dressedAtAll, Nat.zero_add]
      by_cases hj : i = j
      · subst hj
        rw [hc]
        simpa using hchild
      · simp [hj, withDone_other a (Ne.symm hj)]
    rw [placeAt, dressedAt, dressedAt, withDone_nil]
    dsimp only
    rw [hc]
    by_cases hd : done [] = true
    · by_cases h2 : tag = "h2"
      · simp only [hd, h2, and_self, if_true, List.cons_append, List.nil_append, update_cons,
          boxed, List.modify_zero_cons, ← hinside]
      · simp only [hd, h2, and_false, if_true, if_false, List.nil_append, update_cons,
          ← hinside]
    · simp only [hd, Bool.false_eq_true, false_and, if_false, List.nil_append, update_cons,
        ← hinside]

end Element

namespace Address

theorem afterBox_append (c b a : Address) : afterBox (c ++ b) (c ++ a) = c ++ afterBox b a := by
  induction c with
  | nil => rfl
  | cons i c ih =>
    rw [List.cons_append, List.cons_append, List.cons_append, ← ih]
    simp only [afterBox, List.isPrefixOf, beq_self_eq_true, Bool.true_and, List.length_cons,
      List.drop_succ_cons, List.cons_append]
    split
    · rfl
    · rfl

end Address

namespace Element

variable {stash : Stash} {done : Address → Bool}

/-- A heading that is put into a box moves all places below its own, and no others. -/
theorem placeAt_withDone {tree e : Tree} {a : Address} (he : tree.at? a = some e)
    (ha : done a = false) (b : Address) :
    placeAt (withDone done a) tree b =
      if e.tag = "h2" then Address.afterBox (placeAt done tree a) (placeAt done tree b)
      else placeAt done tree b := by
  induction a generalizing tree done b with
  | nil =>
    cases he
    have hd : withDone done [] [] = true := by simp [withDone]
    have hbelow (i : Nat) : (fun b => withDone done [] (i :: b)) = fun b => done (i :: b) := by
      funext b
      simp [withDone]
    have hroot : placeAt done e [] = [] := by
      rw [placeAt, ha, if_neg (fun h => Bool.false_ne_true h.1)]
    have hbox := Address.afterBox_below [] (placeAt done e b)
    rw [List.nil_append, List.nil_append] at hbox
    rw [hroot, hbox]
    cases b with
    | nil =>
      rw [placeAt, placeAt, hd, ha]
      simp
    | cons i b =>
      rw [placeAt, placeAt, hd, ha, hbelow i]
      by_cases h2 : e.tag = "h2" <;> simp [h2]
  | cons i a ih =>
    rw [at?_cons] at he
    obtain ⟨c, hc, hce⟩ := Option.bind_eq_some_iff.mp he
    cases b with
    | nil =>
      have hapart : ¬ placeAt done tree (i :: a) <+: placeAt done tree [] := by
        intro hp
        have hlen := hp.length_le
        rw [placeAt, placeAt, List.length_append, List.length_cons] at hlen
        omega
      rw [Address.afterBox_apart _ _ hapart, ite_self, placeAt, placeAt, withDone_nil]
    | cons j b =>
      by_cases hj : j = i
      · subst hj
        have hchild := @ih (fun b => done (j :: b)) c hce ha b
        rw [placeAt, placeAt, placeAt, withDone_nil, withDone_cons, hc]
        dsimp only
        rw [hchild, List.append_cons, List.append_cons _ j (placeAt _ c a),
          List.append_cons _ j (placeAt _ c b), Address.afterBox_append]
        by_cases h2 : e.tag = "h2"
        · rw [if_pos h2, if_pos h2]
        · rw [if_neg h2, if_neg h2]
      · have hapart : ¬ placeAt done tree (i :: a) <+: placeAt done tree (j :: b) := by
          intro hp
          rw [placeAt, placeAt, List.prefix_append_right_inj, List.cons_prefix_cons] at hp
          exact hj hp.1.symm
        rw [Address.afterBox_apart _ _ hapart, ite_self, placeAt, placeAt, withDone_nil,
          withDone_other a hj]

theorem placeAt_ne_nil (e : Tree) (i : Nat) (a : Address) : placeAt done e (i :: a) ≠ [] := by
  rw [placeAt]
  exact List.append_ne_nil_of_right_ne_nil _ (List.cons_ne_nil _ _)

theorem marked_with_children {e : Tree} {es : List Tree}
    (h : Anchor.textOf stash { e with children := es } = Anchor.textOf stash e) :
    marked stash { e with children := es } = { marked stash e with children := es } := by
  unfold marked anchorOf
  rw [h]
  cases classOf? e.tag with
  | none => rfl
  | some classes =>
    dsimp only
    split
    · rfl
    · rfl

/-- What decorating one element makes of it, whatever is decorated of what it holds. -/
theorem inBox_marked {e : Tree} {a : Address} (ha : done a = false)
    (h : Anchor.textOf stash (dressedAt stash (fun b => done (a ++ b)) e) =
      Anchor.textOf stash e) :
    inBox (boxOf? e.tag) (marked stash (dressedAt stash (fun b => done (a ++ b)) e)) =
      dressedAt stash (fun b => withDone done a (a ++ b)) e := by
  have hown : done (a ++ []) = false := by rwa [List.append_nil]
  have hafter : withDone done a (a ++ []) = true := by
    rw [List.append_nil, withDone, beq_self_eq_true, Bool.or_true]
  have hinside : dressedAtAll stash (fun b => withDone done a (a ++ b)) 0 e.children =
      dressedAtAll stash (fun b => done (a ++ b)) 0 e.children := by
    refine dressedAtAll_congr e.children 0 fun j b _ => ?_
    have hne : (a ++ j :: b == a) = false := by
      refine beq_false_of_ne fun heq => ?_
      exact List.cons_ne_nil j b (List.append_right_eq_self.mp heq)
    rw [withDone, hne, Bool.or_false]
  rw [dressedAt_of_not e hown] at h ⊢
  rw [marked_with_children h, boxOf?_eq]
  obtain ⟨tag, attrs, text, tail, children⟩ := e
  rw [dressedAt, hafter, if_pos rfl, hinside]
  split
  · rfl
  · rfl

/-! ### All elements, in any order -/

/-- The boxes after the elements with the given first addresses were decorated in that order. -/
def boxesAlong (tree : Tree) (boxes : List Address) : List Address → List Address
  | [] => boxes
  | a :: later =>
    let box := match tree.at? a with
      | some e => if e.tag = "h2" then [Address.afterBoxes boxes a] else []
      | none => []
    boxesAlong tree (boxes ++ box) later

/-- What one element's turn does to a tree decorated in part. -/
theorem decorateAll_step {tree e : Tree} {a : Address} {boxes : List Address}
    (later : List Address) (hroot : tree.tag ∉ headingTags)
    (hread : e.tag = "h2" → ∃ text, Anchor.textOf stash e = .ok text)
    (he : tree.at? a = some e) (ha : done a = false)
    (hplace : ∀ b, Address.afterBoxes boxes b = placeAt done tree b) :
    decorateAll stash (dressedAt stash done tree) boxes (a :: later) =
      decorateAll stash (dressedAt stash (withDone done a) tree) (boxesAlong tree boxes [a])
        later := by
  have hfound := @at?_dressedAt stash done tree e a he ha
  have htext : Anchor.textOf stash (dressedAt stash (fun b => done (a ++ b)) e) =
      Anchor.textOf stash e := by
    rw [Anchor.textOf, (innerText_dressedAt stash e _).1, Anchor.textOf]
  have htag : (dressedAt stash (fun b => done (a ++ b)) e).tag = e.tag := by
    rw [dressedAt_of_not e (by rwa [List.append_nil])]
  have hnoheading : placeAt done tree a = [] → headingTags.contains
      (dressedAt stash (fun b => done (a ++ b)) e).tag = false := by
    intro hnil
    cases a with
    | nil =>
      cases he
      rw [htag]
      simpa using hroot
    | cons i a => exact absurd hnil (placeAt_ne_nil tree i a)
  have hrestyled : restyled stash (dressedAt stash (fun b => done (a ++ b)) e) =
      (marked stash (dressedAt stash (fun b => done (a ++ b)) e), none) := by
    refine restyled_eq_marked stash _ fun h2 => ?_
    obtain ⟨text, hok⟩ := hread (htag ▸ h2)
    exact ⟨text, htext.trans hok⟩
  rw [decorateAll_cons stash _ _ boxes later a _ (hplace a) hfound hnoheading, hrestyled]
  dsimp only
  rw [htag, inBox_marked ha htext, update_dressedAt he ha, boxesAlong, boxesAlong, he, boxOf?_eq,
    hplace a]
  dsimp only
  split
  · rfl
  · rfl

theorem boxesAlong_cons (tree : Tree) (boxes : List Address) (a : Address) (later : List Address) :
    boxesAlong tree boxes (a :: later) = boxesAlong tree (boxesAlong tree boxes [a]) later := rfl

theorem afterBoxes_boxesAlong {tree e : Tree} {a : Address} {boxes : List Address}
    (he : tree.at? a = some e) (ha : done a = false)
    (hplace : ∀ b, Address.afterBoxes boxes b = placeAt done tree b) (b : Address) :
    Address.afterBoxes (boxesAlong tree boxes [a]) b = placeAt (withDone done a) tree b := by
  rw [boxesAlong, boxesAlong, he, Address.afterBoxes_append, hplace b, placeAt_withDone he ha,
    hplace a]
  dsimp only
  split
  · rfl
  · rfl

theorem contains_cons_eq (a : Address) (before : List Address) :
    (fun b => done b || (a :: before).contains b) =
      fun b => withDone done a b || before.contains b := by
  funext b
  rw [List.contains_cons, withDone, Bool.or_assoc]

/-- Elements with texts that can be read, decorated one after the other, are the elements decorated,
and the boxes on the way tell where the others are. -/
theorem decorateAll_readable {tree : Tree} (hroot : tree.tag ∉ headingTags)
    (before later : List Address) (boxes : List Address) (hnodup : before.Nodup)
    (hnew : ∀ a ∈ before, done a = false ∧ ∃ e, tree.at? a = some e ∧
      (e.tag = "h2" → ∃ text, Anchor.textOf stash e = .ok text))
    (hplace : ∀ b, Address.afterBoxes boxes b = placeAt done tree b) :
    decorateAll stash (dressedAt stash done tree) boxes (before ++ later) =
        decorateAll stash (dressedAt stash (fun b => done b || before.contains b) tree)
          (boxesAlong tree boxes before) later ∧
      ∀ b, Address.afterBoxes (boxesAlong tree boxes before) b =
        placeAt (fun b => done b || before.contains b) tree b := by
  induction before generalizing done boxes with
  | nil =>
    have hsame : (fun b => done b || ([] : List Address).contains b) = done := by
      funext b
      rw [List.contains_nil, Bool.or_false]
    rw [hsame]
    exact ⟨rfl, hplace⟩
  | cons a before ih =>
    obtain ⟨ha, e, he, hread⟩ := hnew a (List.mem_cons_self ..)
    obtain ⟨hout, hrest⟩ := List.nodup_cons.mp hnodup
    have hlater : ∀ b ∈ before, withDone done a b = false ∧ ∃ e, tree.at? b = some e ∧
        (e.tag = "h2" → ∃ text, Anchor.textOf stash e = .ok text) := by
      intro b hb
      obtain ⟨hdone, hsome⟩ := hnew b (List.mem_cons_of_mem _ hb)
      refine ⟨?_, hsome⟩
      have hne : (b == a) = false := beq_false_of_ne fun heq => hout (heq ▸ hb)
      rw [withDone, hdone, hne, Bool.or_false]
    have hnext := ih (boxesAlong tree boxes [a]) hrest hlater (afterBoxes_boxesAlong he ha hplace)
    rw [List.cons_append, decorateAll_step (before ++ later) hroot hread he ha hplace,
      boxesAlong_cons, contains_cons_eq]
    exact hnext

theorem decorateAll_dressedAt {tree : Tree} (hroot : tree.tag ∉ headingTags)
    (hread : Readable stash tree) (before later : List Address) (boxes : List Address)
    (hnodup : before.Nodup) (hnew : ∀ a ∈ before, done a = false ∧ ∃ e, tree.at? a = some e)
    (hplace : ∀ b, Address.afterBoxes boxes b = placeAt done tree b) :
    decorateAll stash (dressedAt stash done tree) boxes (before ++ later) =
        decorateAll stash (dressedAt stash (fun b => done b || before.contains b) tree)
          (boxesAlong tree boxes before) later ∧
      ∀ b, Address.afterBoxes (boxesAlong tree boxes before) b =
        placeAt (fun b => done b || before.contains b) tree b := by
  refine decorateAll_readable hroot before later boxes hnodup (fun a hmem => ?_) hplace
  obtain ⟨ha, e, he⟩ := hnew a hmem
  exact ⟨ha, e, he, hread a e he⟩

theorem exists_at?_of_perm {tree : Tree} {order : List Address} (h : order.Perm tree.addresses)
    (a : Address) (ha : a ∈ order) : ∃ e, tree.at? a = some e := by
  obtain ⟨b, e, hb, he⟩ := at?_of_mem_addressesFrom [] tree a (h.mem_iff.mp ha)
  exact ⟨e, hb ▸ he⟩

/-- A document is decorated to the same tree in whatever order its elements are taken.  When the
turn of an element comes, it is found where the boxes put it, below its own parent, with its tag,
its attributes and its text unchanged, so that its anchor does not depend on the order either. -/
theorem decorateAll_perm (stash : Stash) (tree : Tree) (order : List Address)
    (hroot : tree.tag ∉ headingTags) (hread : Readable stash tree)
    (horder : order.Perm tree.addresses) :
    decorateAll stash tree [] order = decorate stash tree ∧
      ∀ before a later e, order = before ++ a :: later → tree.at? a = some e →
        ∃ now found, decorateAll stash tree [] before = (now, none) ∧
          decorateAll stash tree [] order =
            decorateAll stash now (boxesAlong tree [] before) (a :: later) ∧
          now.at? (Address.afterBoxes (boxesAlong tree [] before) a) = some found ∧
          found.tag = e.tag ∧ found.attrs = e.attrs ∧
          Anchor.textOf stash found = Anchor.textOf stash e ∧
          ∀ p i, a = p ++ [i] → Address.afterBoxes (boxesAlong tree [] before) a =
            Address.afterBoxes (boxesAlong tree [] before) p ++ [i] := by
  have hnothing (b : Address) : (fun _ : Address => false) b = false := rfl
  have hstart (b : Address) : Address.afterBoxes [] b = placeAt (fun _ => false) tree b :=
    (placeAt_nothing tree b hnothing).symm
  have hnew (as : List Address) (has : ∀ a ∈ as, ∃ e, tree.at? a = some e) :
      ∀ a ∈ as, (fun _ : Address => false) a = false ∧ ∃ e, tree.at? a = some e :=
    fun a ha => ⟨rfl, has a ha⟩
  have hwalk (as : List Address) (later : List Address) (has : as.Nodup)
      (hin : ∀ a ∈ as, ∃ e, tree.at? a = some e) :=
    @decorateAll_dressedAt stash _ tree hroot hread as later [] has (hnew as hin) hstart
  have hnodup : tree.addresses.Nodup := nodup_addressesFrom [] tree
  rw [dressedAt_nothing stash tree _ hnothing] at hwalk
  constructor
  · have hall := (hwalk tree.addresses [] hnodup (exists_at?_of_perm (List.Perm.refl _))).1
    have hany := (hwalk order [] (horder.nodup_iff.mpr hnodup) (exists_at?_of_perm horder)).1
    have hsame : order.contains = tree.addresses.contains := by
      funext b
      rw [Bool.eq_iff_iff, List.contains_iff_mem, List.contains_iff_mem]
      exact horder.mem_iff
    rw [List.append_nil] at hall hany
    rw [decorate, hall, hany, hsame]
    rfl
  · rintro before a later e rfl he
    have hparts := List.nodup_append.mp (horder.nodup_iff.mpr hnodup)
    obtain ⟨hturn, hplace⟩ := hwalk before (a :: later) hparts.1 fun b hb =>
      exists_at?_of_perm horder b (List.mem_append_left _ hb)
    have hdone : before.contains a = false := by
      rw [← Bool.not_eq_true, List.contains_iff_mem]
      exact fun hmem => hparts.2.2 a hmem a (List.mem_cons_self ..) rfl
    have hfound := @at?_dressedAt stash (fun b => false || before.contains b) tree e a he hdone
    refine ⟨_, dressedAt stash (fun b => false || before.contains (a ++ b)) e, ?_, hturn, ?_, ?_,
      ?_, ?_, ?_⟩
    · have hnow := (hwalk before [] hparts.1 fun b hb =>
        exists_at?_of_perm horder b (List.mem_append_left _ hb)).1
      rw [List.append_nil] at hnow
      exact hnow
    · rw [hplace a]
      exact hfound
    · rw [dressedAt_of_not e (by rwa [List.append_nil])]
    · rw [dressedAt_of_not e (by rwa [List.append_nil])]
    · rw [Anchor.textOf, (innerText_dressedAt stash e _).1, Anchor.textOf]
    · rintro p i rfl
      rw [hplace, hplace]
      exact placeAt_child he hdone

/-- The inner heading before the outer one, and the root last. -/
theorem decorateAll_perm_nestedHeadings :
    nestedHeadings.tag ∉ headingTags ∧ Readable (Stash.ofList ["<b>".toList]) nestedHeadings ∧
      [[0, 0], [0], []].Perm nestedHeadings.addresses ∧
      decorateAll (Stash.ofList ["<b>".toList]) nestedHeadings [] [[0, 0], [0], []] =
        decorate (Stash.ofList ["<b>".toList]) nestedHeadings := by
  have hroot : nestedHeadings.tag ∉ headingTags := by decide
  have hread := readable_nestedHeadings
  have horder : [[0, 0], [0], []].Perm nestedHeadings.addresses := by decide
  exact ⟨hroot, hread, horder, (decorateAll_perm _ _ _ hroot hread horder).1⟩

end Element

end Changelog
