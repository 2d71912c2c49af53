import Changelog.Tree.Element

/-!
# Addresses in trees

An element is found by the child indexes on the way to it from the root.
-/

namespace Changelog

/-- The child indexes from the root to an element. -/
abbrev Address := List Nat

namespace Element

variable {τ : Type}

/-- The element at an address. -/
def at? (e : Element τ) : Address → Option (Element τ)
  | [] => some e
  | i :: address =>
    match e.children[i]? with
    | some child => child.at? address
    | none => none

/-- The tree with the element at an address changed. -/
def update (f : Element τ → Element τ) (e : Element τ) : Address → Element τ
  | [] => f e
  | i :: address => { e with children := e.children.modify i fun child => child.update f address }

mutual

/-- The addresses of all elements in document order, each after `trail`. -/
def addressesFrom (trail : Address) : Element τ → List Address
  | ⟨_, _, _, _, children⟩ => trail :: childAddresses trail 0 children

/-- The addresses in children of the element at `trail`, the first of which has index `i`. -/
def childAddresses (trail : Address) (i : Nat) : List (Element τ) → List Address
  | [] => []
  | e :: es => addressesFrom (trail ++ [i]) e ++ childAddresses trail (i + 1) es

end

/-- The addresses of all elements in document order. -/
def addresses (e : Element τ) : List Address :=
  e.addressesFrom []

end Element

end Changelog
