import Changelog.Proofs.Anchors.Tokens

/-!
# Letters of anchors

An anchor holds the ASCII word characters of its text in lower case, one for each character of the
text that has one.  A disguised character has more of them than the character that it stands for, so
the anchor tells them apart.
-/

namespace Changelog

open Text

namespace Anchor

/-- Whether a character leaves an ASCII word character in an anchor. -/
def isLetter (c : Char) : Bool :=
  if c = capitalSigma then false
  else if c = capitalDottedI then true
  else isAsciiWord (lowerSimple c)

/-- How many characters of a text leave ASCII word characters in its anchor. -/
def letters (cs : Text) : Nat :=
  cs.countP isLetter

theorem letters_append (cs ds : Text) : letters (cs ++ ds) = letters cs + letters ds :=
  List.countP_append

theorem letters_le_length (cs : Text) : letters cs ≤ cs.length :=
  List.countP_le_length

/-- Hyphens are no word characters, and all other characters are kept if they are. -/
theorem countP_hyphenate (inGap : Bool) (cs : Text) :
    (hyphenate inGap cs).countP isAsciiWord = cs.countP isAsciiWord := by
  induction cs generalizing inGap with
  | nil => rfl
  | cons c cs ih =>
    unfold hyphenate
    split
    · next hword => rw [List.countP_cons, List.countP_cons, ih false]
    · next hword =>
      rw [List.countP_cons_of_neg hword]
      split
      · exact ih true
      · rw [List.countP_cons_of_neg (by decide), ih true]

theorem countP_lowerAfter (before cs : Text) :
    (lowerAfter before cs).countP isAsciiWord = letters cs := by
  induction cs generalizing before with
  | nil => rfl
  | cons c cs ih =>
    have hsmall : isAsciiWord '\u03c2' = false ∧ isAsciiWord '\u03c3' = false := by decide
    have hdotted : ['i', '\u0307'].countP isAsciiWord = 1 := by decide
    unfold lowerAfter
    dsimp only
    rw [List.countP_append, ih, letters, letters, List.countP_cons, isLetter]
    by_cases hs : c = capitalSigma
    · rw [if_pos hs, if_pos hs]
      split
      · rw [List.countP_singleton, hsmall.1]
        exact Nat.add_comm _ _
      · rw [List.countP_singleton, hsmall.2]
        exact Nat.add_comm _ _
    · rw [if_neg hs, if_neg hs]
      by_cases hd : c = capitalDottedI
      · rw [if_pos hd, if_pos hd, hdotted]
        exact Nat.add_comm _ _
      · rw [if_neg hd, if_neg hd, List.countP_singleton]
        exact Nat.add_comm _ _

/-- The anchor of a text shows how many of its characters leave word characters. -/
theorem countP_ofText (cs : Text) : (ofText cs).countP isAsciiWord = letters cs := by
  rw [ofText, countP_hyphenate, lower, countP_lowerAfter]

end Anchor

/-! ### Disguised characters -/

namespace Entity

theorem numberValue_length_le (n : Nat) : (numberValue n).length ≤ 1 := by
  unfold numberValue
  split
  · exact Nat.le_refl _
  split
  · split
    · exact Nat.le_refl _
    · exact Nat.le_refl _
  split
  · exact Nat.le_refl _
  split
  · exact Nat.zero_le _
  · exact Nat.le_refl _

theorem namesFrom_length_le (c : Char) (e : String × List Nat) (he : e ∈ namesFrom c) :
    e.2.length ≤ 2 := by
  have hall : (namesFrom c).all (fun e => decide (e.2.length ≤ 2)) = true := by
    unfold namesFrom
    split
    all_goals decide +kernel
  exact of_decide_eq_true (List.all_eq_true.mp hall e he)

theorem value?_length_le {name value : Text} (h : value? name = some value) :
    value.length ≤ 2 := by
  unfold value? at h
  split at h
  · cases h
  · obtain ⟨e, he, rfl⟩ := Option.map_eq_some_iff.mp h
    rw [List.length_map]
    exact namesFrom_length_le _ e (List.mem_of_find?_eq_some he)

theorem longestLegacy_eq {name value left : Text} {width : Nat}
    (h : longestLegacy name width = some (value, left)) :
    value.length ≤ 2 ∧ ∃ front, name = front ++ left := by
  induction width with
  | zero => cases h
  | succ width ih =>
    unfold longestLegacy at h
    split at h
    · cases h
    · split at h
      · next found =>
        cases h
        unfold legacyValue? at found
        split at found
        · exact ⟨value?_length_le found, _, (List.take_append_drop (width + 1) name).symm⟩
        · cases found
      · exact ih h

/-- What a name stands for has at most two letters more than the name. -/
theorem letters_nameValue_le (name : Text) :
    Anchor.letters (nameValue name true) ≤ Anchor.letters name + 2 := by
  have hvalue {value : Text} (h : value.length ≤ 2) : Anchor.letters value ≤ 2 :=
    Nat.le_trans (Anchor.letters_le_length value) h
  have hclosing : Anchor.letters [';'] = 0 := by decide
  have hampersand : Anchor.letters ['&'] = 0 := by decide
  unfold nameValue
  dsimp only
  rw [if_pos rfl, if_pos rfl, if_pos rfl]
  split
  · next value found => exact Nat.le_add_left_of_le (hvalue (value?_length_le found))
  · split
    · next value left found =>
      obtain ⟨hlen, front, hfront⟩ := longestLegacy_eq found
      have hname : Anchor.letters name = Anchor.letters front + Anchor.letters left := by
        rw [hfront, Anchor.letters_append]
      have hle := hvalue hlen
      rw [Anchor.letters_append, Anchor.letters_append, hclosing]
      omega
    · show Anchor.letters (['&'] ++ (name ++ [';'])) ≤ _
      rw [Anchor.letters_append, Anchor.letters_append, hclosing, hampersand]
      omega

end Entity

/-- What a disguised character stands for has fewer letters than its disguise. -/
theorem Span.decode_code (c : Char) :
    ∃ value, Anchor.letters value + 1 ≤ Anchor.letters (Span.disguise c) ∧
      ∀ rest, Entity.decode ('&' :: (Span.code c ++ rest)) =
        (Entity.decode rest).map (value ++ ·) := by
  have hmark : Anchor.letters Mark.ampersand = 3 := by decide
  rw [Span.disguise_eq, Anchor.letters_append, hmark]
  unfold Span.code
  cases hn : Entity.addressName? c.toNat with
  | some name =>
    obtain ⟨hne, hlen, hall⟩ := Span.addressName?_spec hn
    have hletters := Entity.letters_nameValue_le name.toList
    refine ⟨Entity.nameValue name.toList true, ?_, fun rest => ?_⟩
    · dsimp only
      rw [Anchor.letters_append]
      omega
    · rw [List.append_assoc, List.singleton_append]
      exact Entity.decode_name_short name.toList rest hne hall hlen
  | none =>
    have hletters := Nat.le_trans (Anchor.letters_le_length _)
      (Entity.numberValue_length_le c.toNat)
    have hnumber (rest : Text) := Entity.decode_number (decimal c.toNat) rest Nat.toDigits_ne_nil
      fun d hd => isAsciiDigit_of_mem_decimal hd
    refine ⟨Entity.numberValue c.toNat, by omega, fun rest => ?_⟩
    rw [List.cons_append, List.append_assoc, List.singleton_append, hnumber,
      Mark.readDecimal_decimal]
    rfl

/-! ### Texts with disguised characters -/

/-- What a reader sees, `seen`, of a text from which `taken` is taken for the anchor, when `count` of
its characters are disguised. -/
def Reveals (count : Nat) (taken seen : Except NumberError Text) : Prop :=
  (count = 0 → taken = seen) ∧
    ∀ t v, taken = .ok t → seen = .ok v → Anchor.letters v + count ≤ Anchor.letters t

theorem Reveals.refl (x : Except NumberError Text) : Reveals 0 x x := by
  refine ⟨fun _ => rfl, fun t v ht hv => ?_⟩
  rw [ht] at hv
  cases hv
  exact Nat.le_refl _

/-- The same text in front of both. -/
theorem Reveals.bind {count : Nat} {x y : Except NumberError Text} (h : Reveals count x y)
    (value : Except NumberError Text) :
    Reveals count (value.bind fun v => x.map (v ++ ·)) (value.bind fun v => y.map (v ++ ·)) := by
  refine ⟨fun hc => by rw [h.1 hc], fun t v ht hv => ?_⟩
  cases value with
  | error e => cases ht
  | ok front =>
    obtain ⟨t', ht', rfl⟩ := Text.map_ok ht
    obtain ⟨v', hv', rfl⟩ := Text.map_ok hv
    have hle := h.2 t' v' ht' hv'
    rw [Anchor.letters_append, Anchor.letters_append]
    omega

theorem Reveals.map {count : Nat} {x y : Except NumberError Text} (h : Reveals count x y)
    (front : Text) : Reveals count (x.map (front ++ ·)) (y.map (front ++ ·)) :=
  h.bind (.ok front)

/-- A disguised character in front, and what it stands for. -/
theorem Reveals.disguise {count : Nat} {x y : Except NumberError Text} (h : Reveals count x y)
    {front value : Text} (hf : Anchor.letters value + 1 ≤ Anchor.letters front) :
    Reveals (count + 1) (x.map (front ++ ·)) (y.map (value ++ ·)) := by
  refine ⟨fun hc => absurd hc (Nat.succ_ne_zero _), fun t v ht hv => ?_⟩
  obtain ⟨t', ht', rfl⟩ := Text.map_ok ht
  obtain ⟨v', hv', rfl⟩ := Text.map_ok hv
  have hle := h.2 t' v' ht' hv'
  rw [Anchor.letters_append, Anchor.letters_append]
  omega

end Changelog
