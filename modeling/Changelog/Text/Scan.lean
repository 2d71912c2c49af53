/-!
# Scanning texts

A text is a list of characters.  Recognisers read from the front of a text and return what is
left; the functions here find, split, join and replace by means of them.
-/

namespace Changelog

/-- A text, as the list of its characters. -/
abbrev Text := List Char

namespace Text

/-- What follows `lead` when the text begins with it. -/
def after? : Text → Text → Option Text
  | [], cs => some cs
  | _ :: _, [] => none
  | l :: lead, c :: cs => if l = c then after? lead cs else none

theorem after?_eq_some_iff (lead cs rest : Text) :
    after? lead cs = some rest ↔ cs = lead ++ rest := by
  induction lead generalizing cs with
  | nil => simp [after?]
  | cons l lead ih =>
    cases cs with
    | nil => simp [after?]
    | cons c cs =>
      by_cases h : l = c
      · simp [after?, h, ih]
      · have h' : ¬ c = l := fun e => h e.symm
        simp [after?, h, h']

def startsWith (cs lead : Text) : Bool :=
  (after? lead cs).isSome

def endsWith (cs trail : Text) : Bool :=
  startsWith cs.reverse trail.reverse

/-- The longest run of characters of a class at the front, and the rest. -/
def spanWhile (p : Char → Bool) : Text → Text × Text
  | [] => ([], [])
  | c :: cs =>
    if p c then ((c :: (spanWhile p cs).1), (spanWhile p cs).2)
    else ([], c :: cs)

theorem spanWhile_append (p : Char → Bool) (cs : Text) :
    (spanWhile p cs).1 ++ (spanWhile p cs).2 = cs := by
  induction cs with
  | nil => rfl
  | cons c cs ih => by_cases h : p c = true <;> simp [spanWhile, h, ih]

theorem spanWhile_all (p : Char → Bool) (cs : Text) :
    (spanWhile p cs).1.all p = true := by
  induction cs with
  | nil => rfl
  | cons c cs ih =>
    by_cases h : p c = true
    · simpa [spanWhile, h] using ih
    · simp [spanWhile, h]

/-- What comes before the first occurrence of `sep`, and what comes after it. -/
def splitFirst? (sep : Text) : Text → Option (Text × Text)
  | [] => if sep = [] then some ([], []) else none
  | c :: cs =>
    match after? sep (c :: cs) with
    | some rest => some ([], rest)
    | none => (splitFirst? sep cs).map fun r => (c :: r.1, r.2)

theorem splitFirst?_eq (sep cs before rest : Text)
    (h : splitFirst? sep cs = some (before, rest)) : cs = before ++ sep ++ rest := by
  induction cs generalizing before with
  | nil =>
    simp only [splitFirst?] at h
    split at h
    · simp_all
    · simp at h
  | cons c cs ih =>
    simp only [splitFirst?] at h
    split at h
    · next r hr =>
      simp only [Option.some.injEq, Prod.mk.injEq] at h
      obtain ⟨rfl, rfl⟩ := h
      simpa using (after?_eq_some_iff _ _ _).1 hr
    · simp only [Option.map_eq_some_iff] at h
      obtain ⟨⟨b, r⟩, hb, he⟩ := h
      simp only [Prod.mk.injEq] at he
      obtain ⟨rfl, rfl⟩ := he
      simp [ih b hb]

def occursIn (part cs : Text) : Bool :=
  (splitFirst? part cs).isSome

/-- The pieces between line ends; there is one more of them than line ends. -/
def splitChar (sep : Char) : Text → List Text
  | [] => [[]]
  | c :: cs =>
    if c = sep then [] :: splitChar sep cs
    else match splitChar sep cs with
      | [] => [[c]]
      | piece :: pieces => (c :: piece) :: pieces

def lines (cs : Text) : List Text :=
  splitChar '\n' cs

/-- The texts of a list with `sep` between them. -/
def joinWith (sep : Text) : List Text → Text
  | [] => []
  | [piece] => piece
  | piece :: pieces => piece ++ sep ++ joinWith sep pieces

theorem joinWith_splitChar (sep : Char) (cs : Text) :
    joinWith [sep] (splitChar sep cs) = cs := by
  induction cs with
  | nil => rfl
  | cons c cs ih =>
    cases h : splitChar sep cs with
    | nil =>
      cases cs with
      | nil => simp [splitChar] at h
      | cons d ds =>
        simp only [splitChar] at h
        split at h
        · simp at h
        · split at h <;> simp at h
    | cons piece pieces =>
      rw [h] at ih
      by_cases hc : c = sep
      · simp [splitChar, hc, h, joinWith, ih]
      · cases pieces with
        | nil =>
          simp only [joinWith] at ih
          simp [splitChar, hc, h, joinWith, ih]
        | cons q qs =>
          simp only [joinWith, List.append_assoc, List.singleton_append] at ih
          simp [splitChar, hc, h, joinWith, ih]

/-- The pieces between two line ends in a row, read from the left (`fuel` bounds the recursion). -/
def splitTextWithin (sep : Text) : Nat → Text → List Text
  | 0, cs => [cs]
  | fuel + 1, cs =>
    match splitFirst? sep cs with
    | none => [cs]
    | some (before, rest) => before :: splitTextWithin sep fuel rest

/-- The pieces between the occurrences of `sep`, read from the left. -/
def splitText (sep cs : Text) : List Text :=
  splitTextWithin sep cs.length cs

/-- Replacement read from the left: where `recognise` reads a front part, its value stands in
its place, and elsewhere a character is kept (`fuel` bounds the recursion). -/
def replaceWithin (recognise : Text → Option (Text × Text)) : Nat → Text → Text
  | 0, cs => cs
  | _ + 1, [] => []
  | fuel + 1, c :: cs =>
    match recognise (c :: cs) with
    | some (value, rest) => value ++ replaceWithin recognise fuel rest
    | none => c :: replaceWithin recognise fuel cs

/-- Every part that `recognise` reads is replaced by its value. -/
def replaceAll (recognise : Text → Option (Text × Text)) (cs : Text) : Text :=
  replaceWithin recognise cs.length cs

/-- Replacement whose values may fail (`fuel` bounds the recursion). -/
def replaceWithin? {ε : Type} (recognise : Text → Option (Except ε Text × Text)) :
    Nat → Text → Except ε Text
  | 0, cs => .ok cs
  | _ + 1, [] => .ok []
  | fuel + 1, c :: cs =>
    match recognise (c :: cs) with
    | some (.error e, _) => .error e
    | some (.ok value, rest) => (replaceWithin? recognise fuel rest).map (value ++ ·)
    | none => (replaceWithin? recognise fuel cs).map (c :: ·)

/-- Every part that `recognise` reads is replaced by its value; the first failure from the left
is the failure of the whole. -/
def replaceAll? {ε : Type} (recognise : Text → Option (Except ε Text × Text)) (cs : Text) :
    Except ε Text :=
  replaceWithin? recognise cs.length cs

/-- The text with every occurrence of `part` replaced. -/
def replaceText (part value cs : Text) : Text :=
  replaceAll (fun t => (after? part t).map fun rest => (value, rest)) cs

def lowerAscii (cs : Text) : Text :=
  cs.map Char.toLower

def last? (cs : Text) : Option Char :=
  cs.getLast?

end Text

end Changelog
