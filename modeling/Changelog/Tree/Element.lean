import Changelog.Text.Scan

/-!
# Element trees

An element has a tag, attributes, children, the text before its first child and the text after
its own end.  A text that is absent differs from an empty one.  The type of the texts is a
parameter: while running text is being read they carry more than their characters.
-/

namespace Changelog

/-- An element of a document. -/
structure Element (τ : Type) where
  tag : String
  attrs : List (String × Text)
  text : Option τ
  tail : Option τ
  children : List (Element τ)
  deriving Inhabited

/-- A tree whose texts are plain. -/
abbrev Tree := Element Text

namespace Element

variable {τ σ : Type}

/-- An element without attributes, texts and children. -/
def bare (tag : String) : Element τ :=
  ⟨tag, [], none, none, []⟩

def attr? (e : Element τ) (name : String) : Option Text :=
  (e.attrs.find? fun a => a.1 == name).map (·.2)

/-- The attributes with one of them set: in its place if it is there, else at the end. -/
def setIn (name : String) (value : Text) : List (String × Text) → List (String × Text)
  | [] => [(name, value)]
  | a :: attrs => if a.1 = name then (name, value) :: attrs else a :: setIn name value attrs

/-- The element with an attribute set. -/
def set (e : Element τ) (name : String) (value : Text) : Element τ :=
  { e with attrs := setIn name value e.attrs }

/-- The element with one more child at the end. -/
def append (e child : Element τ) : Element τ :=
  { e with children := e.children ++ [child] }

def lastChild? (e : Element τ) : Option (Element τ) :=
  e.children.getLast?

def mapLast (f : Element τ → Element τ) (e : Element τ) : Element τ :=
  match e.lastChild? with
  | none => e
  | some child => { e with children := e.children.dropLast ++ [f child] }

mutual

def map (f : τ → σ) : Element τ → Element σ
  | ⟨tag, attrs, text, tail, children⟩ =>
    ⟨tag, attrs, text.map f, tail.map f, mapAll f children⟩

def mapAll (f : τ → σ) : List (Element τ) → List (Element σ)
  | [] => []
  | e :: es => map f e :: mapAll f es

end

mutual

/-- The texts inside the element, one after the other; its own tail is outside. -/
def innerText : Tree → Text
  | ⟨_, _, text, _, children⟩ => text.getD [] ++ innerTextAll children

/-- The texts of elements and the tails after them. -/
def innerTextAll : List Tree → Text
  | [] => []
  | e :: es => innerText e ++ e.tail.getD [] ++ innerTextAll es

end

mutual

/-- How many elements a tree holds. -/
def size : Element τ → Nat
  | ⟨_, _, _, _, children⟩ => sizeAll children + 1

/-- How many elements trees hold. -/
def sizeAll : List (Element τ) → Nat
  | [] => 0
  | e :: es => size e + sizeAll es

end

theorem mapAll_eq_map (f : τ → σ) (es : List (Element τ)) : mapAll f es = es.map (map f) := by
  induction es with
  | nil => rfl
  | cons e es ih => simp only [mapAll, List.map_cons, ih]

end Element

end Changelog
