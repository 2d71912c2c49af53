import Changelog.Entity.Decode
import Changelog.Proofs.Text.Replace
import Changelog.Text.Space
import Changelog.Tree.Written

/-!
# What a reader of a page sees

A reader of a page skips its tags and comments, and decodes the character references in what is
left.  The tags that are written around a text are skipped whole, whatever their attributes.
-/

namespace Changelog.Html

open Text

/-- Where a reader is inside a tag. -/
inductive Within
  /-- Behind the name of the tag, or in the name of an attribute. -/
  | tag
  /-- Where a value may begin. -/
  | value
  /-- In a value without quotes. -/
  | bare
  /-- In a value that ends with the given mark. -/
  | quoted (mark : Char)

/-- What follows a tag; a tag that is not closed goes on to the end. -/
def tagEnd : Within → Text → Text
  | _, [] => []
  | .tag, c :: cs =>
    if c = '>' then cs else if c = '=' then tagEnd .value cs else tagEnd .tag cs
  | .value, c :: cs =>
    if c = '>' then cs
    else if c = '"' ∨ c = '\'' then tagEnd (.quoted c) cs
    else if isSpace c then tagEnd .value cs
    else tagEnd .bare cs
  | .bare, c :: cs =>
    if c = '>' then cs else if isSpace c then tagEnd .tag cs else tagEnd .bare cs
  | .quoted mark, c :: cs => if c = mark then tagEnd .tag cs else tagEnd (.quoted mark) cs

/-- What follows a comment, given the text behind its opening. -/
def commentEnd : Text → Text
  | [] => []
  | c :: cs =>
    match after? "-->".toList (c :: cs) with
    | some rest => rest
    | none =>
      match after? "--!>".toList (c :: cs) with
      | some rest => rest
      | none => commentEnd cs

/-- What follows the next closing bracket. -/
def bracketEnd (cs : Text) : Text :=
  (cs.dropWhile (· != '>')).drop 1

/-- What follows a tag, a comment or a declaration at the front of a text. -/
def skip? : Text → Option Text
  | '<' :: '!' :: '-' :: '-' :: '>' :: cs => some cs
  | '<' :: '!' :: '-' :: '-' :: '-' :: '>' :: cs => some cs
  | '<' :: '!' :: '-' :: '-' :: cs => some (commentEnd cs)
  | '<' :: '!' :: cs => some (bracketEnd cs)
  | '<' :: '?' :: cs => some (bracketEnd cs)
  | '<' :: '/' :: c :: cs =>
    if c.isAlpha then some (tagEnd .tag cs) else some (bracketEnd (c :: cs))
  | '<' :: c :: cs => if c.isAlpha then some (tagEnd .tag cs) else none
  | _ => none

/-- The text without its tags and comments. -/
def strip (cs : Text) : Text :=
  replaceAll (fun t => (skip? t).map fun rest => ([], rest)) cs

/-- What a reader of the page sees where the given text stands. -/
def shown (cs : Text) : Except NumberError Text :=
  Entity.decode (strip cs)

/-! ### Lengths -/

theorem tagEnd_length_le (place : Within) (cs : Text) : (tagEnd place cs).length ≤ cs.length := by
  induction cs generalizing place with
  | nil => cases place <;> exact Nat.le_refl _
  | cons c cs ih =>
    have hstep (next : Within) : (tagEnd next cs).length ≤ (c :: cs).length :=
      Nat.le_succ_of_le (ih next)
    have hdone : cs.length ≤ (c :: cs).length := Nat.le_succ _
    cases place with
    | tag =>
      unfold tagEnd
      split
      · exact hdone
      split
      · exact hstep .value
      · exact hstep .tag
    | value =>
      unfold tagEnd
      split
      · exact hdone
      split
      · exact hstep (.quoted c)
      split
      · exact hstep .value
      · exact hstep .bare
    | bare =>
      unfold tagEnd
      split
      · exact hdone
      split
      · exact hstep .tag
      · exact hstep .bare
    | quoted mark =>
      unfold tagEnd
      split
      · exact hstep .tag
      · exact hstep (.quoted mark)

theorem after?_length_le {lead cs rest : Text} (h : after? lead cs = some rest) :
    rest.length ≤ cs.length := by
  rw [after?_eq_some_iff] at h
  rw [h, List.length_append]
  exact Nat.le_add_left _ _

theorem commentEnd_length_le (cs : Text) : (commentEnd cs).length ≤ cs.length := by
  induction cs with
  | nil => exact Nat.le_refl _
  | cons c cs ih =>
    unfold commentEnd
    split
    · next rest h => exact after?_length_le h
    · split
      · next rest h => exact after?_length_le h
      · exact Nat.le_succ_of_le ih

theorem bracketEnd_length_le (cs : Text) : (bracketEnd cs).length ≤ cs.length := by
  unfold bracketEnd
  rw [List.length_drop]
  exact Nat.le_trans (Nat.sub_le _ _) (List.dropWhile_sublist _).length_le

theorem skip?_lt (cs rest : Text) (h : skip? cs = some rest) : rest.length < cs.length := by
  unfold skip? at h
  split at h
  · cases h
    simp only [List.length_cons]
    omega
  · cases h
    simp only [List.length_cons]
    omega
  · next cs _ _ =>
    cases h
    have hle := commentEnd_length_le cs
    simp only [List.length_cons]
    omega
  · next cs _ _ _ =>
    cases h
    have hle := bracketEnd_length_le cs
    simp only [List.length_cons]
    omega
  · next cs =>
    cases h
    have hle := bracketEnd_length_le cs
    simp only [List.length_cons]
    omega
  · next c cs =>
    split at h
    · cases h
      have hle := tagEnd_length_le .tag cs
      simp only [List.length_cons]
      omega
    · cases h
      have hle := bracketEnd_length_le (c :: cs)
      simp only [List.length_cons] at hle ⊢
      omega
  · next c cs _ _ _ _ _ _ =>
    split at h
    · cases h
      have hle := tagEnd_length_le .tag cs
      simp only [List.length_cons]
      omega
    · cases h
  · cases h

theorem reads_skip : Reads fun t => (skip? t).map fun rest => (([] : Text), rest) := by
  intro cs value rest h
  obtain ⟨rest', hskip, heq⟩ := Option.map_eq_some_iff.mp h
  cases heq
  exact skip?_lt cs rest hskip

/-! ### Texts and tags -/

theorem skip?_of_ne (c : Char) (cs : Text) (h : c ≠ '<') : skip? (c :: cs) = none := by
  unfold skip?
  split <;> simp_all

theorem strip_skip (cs rest : Text) (h : skip? cs = some rest) : strip cs = strip rest := by
  have hread : (skip? cs).map (fun rest => (([] : Text), rest)) = some ([], rest) := by
    rw [h]
    rfl
  unfold strip
  rw [replaceAll_read reads_skip hread]
  rfl

/-- A text without angle brackets stays. -/
theorem strip_append (front rest : Text) (h : '<' ∉ front) :
    strip (front ++ rest) = front ++ strip rest := by
  unfold strip
  apply replaceAll_append
  intro c cs ⟨before, hb⟩
  have hc : c ≠ '<' := by
    intro hc
    rw [hb, hc] at h
    exact h (List.mem_append_right _ List.mem_cons_self)
  rw [skip?_of_ne c _ hc]
  rfl

/-- Characters that can stand in a name of a tag or an attribute, as far as a reader cares. -/
def IsName (cs : Text) : Prop :=
  '>' ∉ cs ∧ '=' ∉ cs

instance (cs : Text) : Decidable (IsName cs) :=
  inferInstanceAs (Decidable ('>' ∉ cs ∧ '=' ∉ cs))

theorem tagEnd_name (cs rest : Text) (h : IsName cs) :
    tagEnd .tag (cs ++ rest) = tagEnd .tag rest := by
  induction cs with
  | nil => rfl
  | cons c cs ih =>
    obtain ⟨hclose, hequals⟩ := h
    rw [List.mem_cons, not_or] at hclose hequals
    rw [List.cons_append, tagEnd, if_neg (Ne.symm hclose.1), if_neg (Ne.symm hequals.1)]
    exact ih ⟨hclose.2, hequals.2⟩

theorem tagEnd_quoted (cs rest : Text) (h : '"' ∉ cs) :
    tagEnd (.quoted '"') (cs ++ '"' :: rest) = tagEnd .tag rest := by
  induction cs with
  | nil => rfl
  | cons c cs ih =>
    rw [List.mem_cons, not_or] at h
    rw [List.cons_append, tagEnd, if_neg (Ne.symm h.1)]
    exact ih h.2

theorem quote_not_mem_value (cs : Text) : '"' ∉ Escape.value cs := by
  unfold Escape.value
  induction cs with
  | nil => exact List.not_mem_nil
  | cons c cs ih =>
    unfold Escape.characters
    dsimp only
    rw [List.mem_append, not_or]
    refine ⟨?_, ih⟩
    split
    · split <;> decide
    split
    · decide
    split
    · decide
    split
    · decide
    · next hq =>
      intro hm
      exact hq ⟨(List.mem_singleton.mp hm).symm, rfl⟩

theorem mem_insertAttr (a b : String × Text) (attrs : List (String × Text))
    (h : b ∈ insertAttr a attrs) : b = a ∨ b ∈ attrs := by
  induction attrs with
  | nil => exact Or.inl (List.mem_singleton.mp h)
  | cons x attrs ih =>
    unfold insertAttr at h
    split at h
    · exact List.mem_cons.mp h
    · rcases List.mem_cons.mp h with h | h
      · exact Or.inr (h ▸ List.mem_cons_self)
      · rcases ih h with h | h
        · exact Or.inl h
        · exact Or.inr (List.mem_cons_of_mem x h)

theorem mem_sortedAttrs (a : String × Text) (attrs : List (String × Text))
    (h : a ∈ sortedAttrs attrs) : a ∈ attrs := by
  induction attrs with
  | nil => exact h
  | cons x attrs ih =>
    rcases mem_insertAttr x a (sortedAttrs attrs) h with h | h
    · exact h ▸ List.mem_cons_self
    · exact List.mem_cons_of_mem x (ih h)

/-- Attributes are read whole, however their values are written between the quotes. -/
theorem tagEnd_attrs (image : Text → Text) (hi : ∀ cs, '"' ∉ image cs)
    (attrs : List (String × Text)) (rest : Text) (h : ∀ a ∈ attrs, IsName a.1.toList) :
    tagEnd .tag ((attrs.flatMap fun a =>
      ' ' :: (a.1.toList ++ '=' :: '"' :: (image a.2 ++ ['"']))) ++ rest) = tagEnd .tag rest := by
  induction attrs with
  | nil => rfl
  | cons a attrs ih =>
    obtain ⟨hfirst, hothers⟩ := List.forall_mem_cons.mp h
    rw [List.flatMap_cons, List.append_assoc, List.cons_append, tagEnd, if_neg (by decide),
      if_neg (by decide), List.append_assoc, tagEnd_name _ _ hfirst, List.cons_append, tagEnd,
      if_neg (by decide), if_pos rfl, List.cons_append, tagEnd, if_neg (by decide),
      if_pos (Or.inl rfl), List.append_assoc, List.singleton_append,
      tagEnd_quoted _ _ (hi a.2)]
    exact ih hothers

theorem skip?_tag {c : Char} (cs : Text) (h : c.isAlpha = true) :
    skip? ('<' :: c :: cs) = some (tagEnd .tag cs) := by
  have hne (d : Char) (hd : d.isAlpha = false) : c ≠ d := by
    intro he
    rw [he, hd] at h
    cases h
  have hbang := hne '!' (by decide)
  have hquery := hne '?' (by decide)
  have hslash := hne '/' (by decide)
  unfold skip?
  split <;> simp_all

theorem skip?_end {c : Char} (cs : Text) (h : c.isAlpha = true) :
    skip? ('<' :: '/' :: c :: cs) = some (tagEnd .tag cs) := by
  rw [skip?, if_pos h]

end Changelog.Html
