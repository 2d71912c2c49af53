import Changelog.Style.Decorate

/-!
# Addresses after boxes

A box put at an address moves what lies at that address and below it one step down.  `Carries` says
that the boxes put in so far take a whole subtree from one address to another; boxes inside one
child of an element do not move the other children.
-/

namespace Changelog.Address

theorem afterBox_below (b s : Address) : afterBox b (b ++ s) = b ++ 0 :: s := by
  have hp : b.isPrefixOf (b ++ s) = true := List.isPrefixOf_iff_prefix.mpr (List.prefix_append b s)
  simp only [afterBox, hp, if_true, List.drop_left]

theorem afterBox_apart (b a : Address) (h : ¬ b <+: a) : afterBox b a = a := by
  have hp : ¬ b.isPrefixOf a = true := fun hb => h (List.isPrefixOf_iff_prefix.mp hb)
  simp only [afterBox, if_neg hp]

theorem afterBoxes_append (bs cs : List Address) (a : Address) :
    afterBoxes (bs ++ cs) a = afterBoxes cs (afterBoxes bs a) :=
  List.foldl_append

theorem afterBoxes_apart (bs : List Address) (a : Address) (h : ∀ b ∈ bs, ¬ b <+: a) :
    afterBoxes bs a = a := by
  induction bs with
  | nil => rfl
  | cons b bs ih =>
    have hb : afterBox b a = a := afterBox_apart b a (h b (List.mem_cons_self ..))
    have hbs : afterBoxes bs a = a := ih fun c hc => h c (List.mem_cons_of_mem _ hc)
    show afterBoxes bs (afterBox b a) = a
    rw [hb, hbs]

/-- The boxes take the subtree at `p` to `q`. -/
def Carries (bs : List Address) (p q : Address) : Prop :=
  ∀ s, afterBoxes bs (p ++ s) = q ++ s

theorem carries_nil (p : Address) : Carries [] p p := fun _ => rfl

theorem Carries.root {bs : List Address} {p q : Address} (h : Carries bs p q) :
    afterBoxes bs p = q := by
  have hs := h []
  rwa [List.append_nil, List.append_nil] at hs

theorem Carries.child {bs : List Address} {p q : Address} (h : Carries bs p q) (i : Nat) :
    Carries bs (p ++ [i]) (q ++ [i]) := by
  intro s
  rw [List.append_assoc, List.append_assoc]
  exact h ([i] ++ s)

/-- A box around the element at `q` moves its children. -/
theorem Carries.boxed {bs : List Address} {p q : Address} (h : Carries bs p q) (i : Nat) :
    Carries (bs ++ [q]) (p ++ [i]) (q ++ [0] ++ [i]) := by
  intro s
  have hb := h.child i s
  rw [afterBoxes_append, hb, List.append_assoc]
  show afterBox q (q ++ ([i] ++ s)) = _
  rw [afterBox_below]
  simp only [List.append_assoc, List.cons_append, List.nil_append]

/-- Boxes inside the child `i` of the element at `q` do not move its other children. -/
theorem Carries.sibling {bs cs : List Address} {p q : Address} {i j : Nat}
    (h : Carries bs (p ++ [j]) (q ++ [j])) (hc : ∀ c ∈ cs, (q ++ [i]) <+: c) (hij : i ≠ j) :
    Carries (bs ++ cs) (p ++ [j]) (q ++ [j]) := by
  intro s
  rw [afterBoxes_append, h s]
  apply afterBoxes_apart
  intro c hm hcp
  obtain ⟨t, ht⟩ := (hc c hm).trans hcp
  simp only [List.append_assoc, List.cons_append, List.nil_append, List.append_cancel_left_eq,
    List.cons.injEq] at ht
  exact hij ht.1

end Changelog.Address
