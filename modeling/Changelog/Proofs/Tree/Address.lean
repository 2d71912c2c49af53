import Changelog.Tree.Address

/-!
# Finding and changing elements by address

An address put behind another one is followed in two steps, and a change at an address is seen at
that address and below it and nowhere else.
-/

namespace Changelog.Element

variable {τ : Type}

theorem at?_nil (e : Element τ) : e.at? [] = some e := rfl

theorem at?_cons (e : Element τ) (i : Nat) (a : Address) :
    e.at? (i :: a) = e.children[i]?.bind fun c => c.at? a := by
  simp only [at?]
  cases e.children[i]? with
  | none => rfl
  | some c => rfl

theorem update_nil (f : Element τ → Element τ) (e : Element τ) : e.update f [] = f e := rfl

theorem update_cons (f : Element τ → Element τ) (e : Element τ) (i : Nat) (a : Address) :
    e.update f (i :: a) = { e with children := e.children.modify i fun c => c.update f a } := rfl

/-- An address put behind another one is followed in two steps. -/
theorem at?_append (e : Element τ) (a b : Address) :
    e.at? (a ++ b) = (e.at? a).bind fun c => c.at? b := by
  induction a generalizing e with
  | nil => rfl
  | cons i a ih =>
    rw [List.cons_append, at?_cons, at?_cons]
    cases e.children[i]? with
    | none => rfl
    | some c => exact ih c

/-- A change behind an address is a change of the element at that address. -/
theorem update_append (f : Element τ → Element τ) (e : Element τ) (a b : Address) :
    e.update f (a ++ b) = e.update (fun c => c.update f b) a := by
  induction a generalizing e with
  | nil => rfl
  | cons i a ih =>
    rw [List.cons_append, update_cons, update_cons]
    simp only [ih]

/-- The element at an address after it was changed. -/
theorem at?_update (f : Element τ → Element τ) (e : Element τ) (a : Address) :
    (e.update f a).at? a = (e.at? a).map f := by
  induction a generalizing e with
  | nil => rfl
  | cons i a ih =>
    rw [update_cons, at?_cons, at?_cons, List.getElem?_modify_eq]
    cases e.children[i]? with
    | none => rfl
    | some c => exact ih c

/-- What holds of an element, and everywhere in its children, holds everywhere in it. -/
theorem forall_at? (P : Element τ → Prop) {e : Element τ} (hown : P e)
    (hc : ∀ c ∈ e.children, ∀ a x, c.at? a = some x → P x) (a : Address) (x : Element τ)
    (hx : e.at? a = some x) : P x := by
  cases a with
  | nil =>
    have he : e = x := Option.some.inj hx
    exact he ▸ hown
  | cons i a =>
    rw [at?_cons] at hx
    obtain ⟨c, hi, hcx⟩ := Option.bind_eq_some_iff.mp hx
    exact hc c (List.mem_of_getElem? hi) a x hcx

theorem forall_at?_child (P : Element τ → Prop) {e c : Element τ}
    (h : ∀ a x, e.at? a = some x → P x) (hc : c ∈ e.children) (a : Address) (x : Element τ)
    (hx : c.at? a = some x) : P x := by
  obtain ⟨i, hi⟩ := List.getElem?_of_mem hc
  refine h (i :: a) x ?_
  rw [at?_cons, hi]
  exact hx

/-- Two changes at one address are one change. -/
theorem update_update (f g : Element τ → Element τ) (e : Element τ) (a : Address) :
    (e.update f a).update g a = e.update (fun c => g (f c)) a := by
  induction a generalizing e with
  | nil => rfl
  | cons i a ih =>
    simp only [update_cons, List.modify_modify_eq, Function.comp_def, ih]

/-- The child after `pre` changed. -/
theorem modify_length_append (f : Element τ → Element τ) (pre es : List (Element τ))
    (e : Element τ) : (pre ++ e :: es).modify pre.length f = pre ++ f e :: es := by
  induction pre with
  | nil => rfl
  | cons d pre ih => rw [List.cons_append, List.length_cons, List.modify_succ_cons, ih]; rfl

/-- Changes that agree on the element at an address are one change. -/
theorem update_congr (f g : Element τ → Element τ) (e x : Element τ) (a : Address)
    (hx : e.at? a = some x) (h : f x = g x) : e.update f a = e.update g a := by
  induction a generalizing e with
  | nil =>
    have he : e = x := Option.some.inj hx
    rw [update_nil, update_nil, he, h]
  | cons i a ih =>
    rw [at?_cons] at hx
    obtain ⟨c, hc, hcx⟩ := Option.bind_eq_some_iff.mp hx
    have hu : c.update f a = c.update g a := ih c hcx
    rw [update_cons, update_cons]
    congr 1
    apply List.ext_getElem?
    intro j
    rw [List.getElem?_modify, List.getElem?_modify]
    by_cases hj : i = j
    · subst hj
      simp [hc, hu]
    · simp [hj]

/-- A change is not seen at addresses that neither lead to it nor go on behind it. -/
theorem at?_update_beside (f : Element τ → Element τ) (e : Element τ) {a b : Address}
    (hab : ¬a <+: b) (hba : ¬b <+: a) : (e.update f a).at? b = e.at? b := by
  induction a generalizing e b with
  | nil => exact absurd List.nil_prefix hab
  | cons i a ih =>
    cases b with
    | nil => exact absurd List.nil_prefix hba
    | cons j b =>
      rw [update_cons, at?_cons, at?_cons]
      dsimp only
      rw [List.getElem?_modify]
      by_cases hj : i = j
      · subst hj
        have hinner : ¬a <+: b := fun hp => hab (List.cons_prefix_cons.mpr ⟨rfl, hp⟩)
        have hinner' : ¬b <+: a := fun hp => hba (List.cons_prefix_cons.mpr ⟨rfl, hp⟩)
        cases e.children[i]? with
        | none => rfl
        | some c => simpa using ih c hinner hinner'
      · simp [hj]

/-- An element above a change is changed inside. -/
theorem at?_update_above (f : Element τ → Element τ) (e : Element τ) (a b : Address) :
    (e.update f (a ++ b)).at? a = (e.at? a).map fun c => c.update f b := by
  rw [update_append, at?_update]

/-- What an element is by itself: all but the insides of its children. -/
def outline (e : Element τ) : String × List (String × Text) × Option τ × Option τ × Nat :=
  (e.tag, e.attrs, e.text, e.tail, e.children.length)

theorem outline_update_cons (f : Element τ → Element τ) (e : Element τ) (i : Nat) (a : Address) :
    (e.update f (i :: a)).outline = e.outline := by
  simp [update_cons, outline]

/-- At addresses that do not go on behind it a change is seen inside of children only. -/
theorem at?_update_outline (f : Element τ → Element τ) (e : Element τ) {a b : Address}
    (h : ¬a <+: b) : ((e.update f a).at? b).map outline = (e.at? b).map outline := by
  by_cases hup : b <+: a
  · obtain ⟨s, rfl⟩ := hup
    obtain ⟨i, s, rfl⟩ := List.exists_cons_of_ne_nil fun hs : s = [] => h (by simp [hs])
    rw [at?_update_above, Option.map_map]
    simp only [Function.comp_def, outline_update_cons]
  · rw [at?_update_beside f e h hup]

/-- A change that keeps children is seen at its own address and above it alone. -/
theorem at?_update_apart {f : Element τ → Element τ}
    (hf : ∀ e, (f e).children = e.children) (e : Element τ) {a b : Address} (h : ¬b <+: a) :
    (e.update f a).at? b = e.at? b := by
  by_cases hab : a <+: b
  · obtain ⟨s, rfl⟩ := hab
    obtain ⟨i, s, rfl⟩ := List.exists_cons_of_ne_nil fun hs : s = [] => h (by simp [hs])
    rw [at?_append, at?_append, at?_update]
    cases e.at? a with
    | none => rfl
    | some x => simp [at?_cons, hf]
  · exact at?_update_beside f e hab h

theorem update_id (e : Element τ) (a : Address) : e.update (fun c => c) a = e := by
  induction a generalizing e with
  | nil => rfl
  | cons i a ih =>
    obtain ⟨tag, attrs, text, tail, children⟩ := e
    have hf : (fun c : Element τ => c.update (fun c => c) a) = id := funext ih
    rw [update_cons, hf, List.modify_id]

/-- A change that leaves the element at an address as it is leaves the tree as it is. -/
theorem update_self (f : Element τ → Element τ) (e x : Element τ) (a : Address)
    (hx : e.at? a = some x) (h : f x = x) : e.update f a = e := by
  rw [update_congr f (fun c => c) e x a hx h, update_id]

end Changelog.Element
