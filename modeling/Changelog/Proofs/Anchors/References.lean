import Changelog.Entity.Decode
import Changelog.Markdown.Escape
import Changelog.Proofs.Text.Cuts
import Changelog.Proofs.Text.Replace

/-!
# Closed references

A reference that is closed by a semicolon is read alike whatever follows it.  The characters that
the writer puts in place of angle brackets and ampersands are such references.
-/

namespace Changelog.Entity

open Text Escape

theorem skipSemicolon_suffix (cs : Text) : skipSemicolon cs <:+ cs := by
  unfold skipSemicolon
  split
  · exact List.suffix_cons _ _
  · exact List.suffix_refl _

/-- The span of a class ends where a character of another class stands. -/
theorem spanWhile_stop (p : Char → Bool) (front rest : Text) (c : Char)
    (h : ∀ d ∈ front, p d = true) (hc : p c = false) :
    spanWhile p (front ++ c :: rest) = (front, c :: rest) := by
  induction front with
  | nil => simp only [List.nil_append, spanWhile, hc, Bool.false_eq_true, if_false]
  | cons d front ih =>
    obtain ⟨hd, hfront⟩ := List.forall_mem_cons.mp h
    simp only [List.cons_append, spanWhile, hd, if_true, ih hfront]

/-- What is behind a reference is behind its ampersand. -/
theorem readReference?_suffix {cs : Text} {value : Except NumberError Text} {rest : Text}
    (h : readReference? cs = some (value, rest)) : ∃ c more, cs = c :: more ∧ rest <:+ more := by
  have hskip {p : Char → Bool} {ds front left : Text} (hs : spanWhile p ds = (front, left)) :
      skipSemicolon left <:+ ds := by
    have hleft := spanWhile_suffix p ds
    rw [hs] at hleft
    exact (skipSemicolon_suffix left).trans hleft
  unfold readReference? at h
  split at h
  · next cs =>
    refine ⟨'&', '#' :: cs, rfl, List.IsSuffix.trans ?_ (List.suffix_cons '#' cs)⟩
    have hdigits := spanWhile_suffix isAsciiDigit cs
    split at h
    · next hs =>
      cases h
      exact hskip hs
    · next hs hspan =>
      rw [hspan] at hdigits
      split at h
      · next hx =>
        cases h
        exact ((hskip hx).trans (List.suffix_cons 'x' hs)).trans hdigits
      · cases h
    · next hs hspan =>
      rw [hspan] at hdigits
      split at h
      · next hx =>
        cases h
        exact ((hskip hx).trans (List.suffix_cons 'X' hs)).trans hdigits
      · cases h
    · cases h
  · next cs _ =>
    refine ⟨'&', cs, rfl, ?_⟩
    have hdrop := List.drop_suffix ((spanWhile isNameChar cs).1.take 32).length cs
    dsimp only at h
    split at h
    · cases h
    · split at h
      · next left hleft =>
        cases h
        rw [hleft] at hdrop
        exact (List.suffix_cons ';' _).trans hdrop
      · cases h
        exact hdrop
  · cases h

theorem reads_reference : Reads readReference? := by
  intro cs value rest h
  obtain ⟨c, more, rfl, hsuffix⟩ := readReference?_suffix h
  exact Nat.lt_succ_of_le hsuffix.length_le

theorem readReference?_of_ne (c : Char) (cs : Text) (h : c ≠ '&') :
    readReference? (c :: cs) = none := by
  unfold readReference?
  split <;> simp_all

theorem decode_keep (c : Char) (cs : Text) (h : c ≠ '&') :
    decode (c :: cs) = (decode cs).map (c :: ·) :=
  replaceAll?_keep c cs (readReference?_of_ne c cs h)

/-- A text without ampersands stays. -/
theorem decode_append (front rest : Text) (h : '&' ∉ front) :
    decode (front ++ rest) = (decode rest).map (front ++ ·) := by
  apply replaceAll?_append
  intro c cs ⟨before, hb⟩
  apply readReference?_of_ne
  intro hc
  rw [hb, hc] at h
  exact h (List.mem_append_right _ List.mem_cons_self)

theorem decode_read {cs rest : Text} {value : Except NumberError Text}
    (h : readReference? cs = some (value, rest)) :
    decode cs = value.bind fun v => (decode rest).map (v ++ ·) :=
  replaceAll?_read reads_reference h

/-! ### Closed references -/

/-- What stands between the ampersand and the semicolon of a closed reference: a name, or a number
in decimal or hexadecimal digits. -/
def IsBody (body : Text) : Prop :=
  (body ≠ [] ∧ ∀ c ∈ body, isNameLetter c = true) ∨
  (∃ ds, ds ≠ [] ∧ body = '#' :: ds ∧ ∀ c ∈ ds, isAsciiDigit c = true) ∨
  ∃ x hs, hs ≠ [] ∧ body = '#' :: x :: hs ∧ (x = 'x' ∨ x = 'X') ∧ ∀ c ∈ hs, isHexDigit c = true

/-- What a closed reference is made of. -/
theorem not_mem_body {body : Text} {c : Char} (h : IsBody body) (hc : c ≠ '#')
    (ha : isNameLetter c = false) (hx : isHexDigit c = false) : c ∉ body := by
  have hd : isAsciiDigit c = false := by
    unfold isHexDigit at hx
    rw [Bool.or_eq_false_iff, Bool.or_eq_false_iff] at hx
    exact hx.1.1
  intro hm
  rcases h with ⟨-, hname⟩ | ⟨ds, -, rfl, hds⟩ | ⟨x, hs, -, rfl, hxx, hhs⟩
  · rw [hname c hm] at ha
    cases ha
  · rcases List.mem_cons.mp hm with hm | hm
    · exact hc hm
    · rw [hds c hm] at hd
      cases hd
  · rcases List.mem_cons.mp hm with hm | hm
    · exact hc hm
    rcases List.mem_cons.mp hm with hm | hm
    · rcases hxx with rfl | rfl
      · rw [hm] at ha
        revert ha
        decide
      · rw [hm] at ha
        revert ha
        decide
    · rw [hhs c hm] at hx
      cases hx

theorem not_mem_closed {body : Text} {c : Char} (h : IsBody body) (hc : c ≠ '#')
    (ha : isNameLetter c = false) (hx : isHexDigit c = false) (hs : c ≠ ';') :
    c ∉ body ++ [';'] := by
  rw [List.mem_append, List.mem_singleton, not_or]
  exact ⟨not_mem_body h hc ha hx, hs⟩

theorem not_mem_reference {body : Text} {c : Char} (h : IsBody body) (hc : c ≠ '#')
    (ha : isNameLetter c = false) (hx : isHexDigit c = false) (hs : c ≠ '&' ∧ c ≠ ';') :
    c ∉ '&' :: (body ++ [';']) := by
  rw [List.mem_cons, not_or]
  exact ⟨hs.1, not_mem_closed h hc ha hx hs.2⟩

theorem isNameChar_of_isNameLetter (c : Char) (h : isNameLetter c = true) : isNameChar c = true := by
  unfold isNameChar
  rw [Bool.not_eq_true']
  simp only [Bool.or_eq_false_iff, beq_eq_false_iff_ne]
  refine ⟨⟨⟨⟨⟨⟨⟨?_, ?_⟩, ?_⟩, ?_⟩, ?_⟩, ?_⟩, ?_⟩, ?_⟩
  all_goals
    intro hc
    rw [hc] at h
    revert h
    decide

theorem ne_of_isNameLetter {c d : Char} (h : isNameLetter c = true) (hd : isNameLetter d = false) :
    c ≠ d := by
  intro he
  rw [he, hd] at h
  cases h

theorem readReference?_name (name rest : Text) (hn : name ≠ [])
    (h : ∀ c ∈ name, isNameLetter c = true) :
    readReference? ('&' :: (name ++ ';' :: rest)) =
      match (name ++ ';' :: rest).drop (name.take 32).length with
      | ';' :: left => some (.ok (nameValue (name.take 32) true), left)
      | left => some (.ok (nameValue (name.take 32) false), left) := by
  have hspan : (spanWhile isNameChar (name ++ ';' :: rest)).1 = name := by
    rw [spanWhile_stop isNameChar name rest ';' (fun c hc => isNameChar_of_isNameLetter c (h c hc))
      (by decide)]
  cases name with
  | nil => exact absurd rfl hn
  | cons c cs =>
    have hc : c ≠ '#' := ne_of_isNameLetter (h c List.mem_cons_self) (by decide)
    unfold readReference?
    split
    · next heq =>
      rw [List.cons_append] at heq
      cases heq
      exact absurd rfl hc
    · next heq =>
      cases heq
      dsimp only
      rw [hspan]
      rfl
    · next hno => exact absurd rfl (hno _)

/-- A name that is not too long is read whole. -/
theorem decode_name_short (name rest : Text) (hn : name ≠ [])
    (h : ∀ c ∈ name, isNameLetter c = true) (hlen : name.length ≤ 32) :
    decode ('&' :: (name ++ ';' :: rest)) = (decode rest).map (nameValue name true ++ ·) := by
  have htake : name.take 32 = name := List.take_of_length_le hlen
  have hr := readReference?_name name rest hn h
  rw [htake, List.drop_left] at hr
  rw [decode_read hr]
  rfl

theorem decode_name (name : Text) (hn : name ≠ []) (h : ∀ c ∈ name, isNameLetter c = true) :
    ∃ value, ∀ rest, decode ('&' :: (name ++ ';' :: rest)) =
      (decode rest).map (value ++ ·) := by
  by_cases hlong : name.length ≤ 32
  · exact ⟨nameValue name true, fun rest => decode_name_short name rest hn h hlong⟩
  · -- Only the first characters of a long name are a name; the others stand for themselves.
    refine ⟨nameValue (name.take 32) false ++ (name.drop 32 ++ [';']), fun rest => ?_⟩
    have hlen : (name.take 32).length = 32 := by
      rw [List.length_take]
      omega
    have hr := readReference?_name name rest hn h
    rw [hlen, List.drop_append_of_le_length (by omega)] at hr
    have hrest : '&' ∉ name.drop 32 ++ [';'] := by
      intro hm
      rcases List.mem_append.mp hm with hm | hm
      · exact ne_of_isNameLetter (h _ (List.mem_of_mem_drop hm)) (by decide) rfl
      · cases List.mem_singleton.mp hm
    obtain ⟨c, cs, hdrop⟩ : ∃ c cs, name.drop 32 = c :: cs := by
      cases hd : name.drop 32 with
      | nil =>
        rw [List.drop_eq_nil_iff] at hd
        omega
      | cons c cs => exact ⟨c, cs, rfl⟩
    have hc : c ≠ ';' := ne_of_isNameLetter
      (h c (List.mem_of_mem_drop (hdrop ▸ List.mem_cons_self))) (by decide)
    have hr' : readReference? ('&' :: (name ++ ';' :: rest)) =
        some (.ok (nameValue (name.take 32) false), name.drop 32 ++ ';' :: rest) := by
      rw [hr, hdrop, List.cons_append]
      split
      · next heq =>
        cases heq
        exact absurd rfl hc
      · rfl
    have happend : name.drop 32 ++ ';' :: rest = (name.drop 32 ++ [';']) ++ rest := by
      rw [List.append_assoc, List.singleton_append]
    rw [decode_read hr', happend, decode_append _ rest hrest]
    cases decode rest with
    | error e => rfl
    | ok v => exact congrArg Except.ok (List.append_assoc _ _ _).symm

/-- A number in decimal digits is read with the semicolon behind it. -/
theorem decode_number (digits rest : Text) (hn : digits ≠ [])
    (h : ∀ c ∈ digits, isAsciiDigit c = true) :
    decode ('&' :: '#' :: (digits ++ ';' :: rest)) =
      ((readDecimal digits).map numberValue).bind fun v => (decode rest).map (v ++ ·) := by
  obtain ⟨d, ds, rfl⟩ := List.exists_cons_of_ne_nil hn
  apply decode_read
  rw [readReference?, spanWhile_stop isAsciiDigit (d :: ds) rest ';' h (by decide)]
  rfl

/-- A closed reference is decoded alike whatever follows it. -/
theorem decode_closed (body : Text) (h : IsBody body) :
    ∃ value : Except NumberError Text, ∀ rest, decode ('&' :: (body ++ ';' :: rest)) =
      value.bind fun v => (decode rest).map (v ++ ·) := by
  rcases h with ⟨hn, hname⟩ | ⟨ds, hn, rfl, hds⟩ | ⟨x, hs, hn, rfl, hx, hhs⟩
  · obtain ⟨value, hvalue⟩ := decode_name body hn hname
    exact ⟨.ok value, hvalue⟩
  · exact ⟨(readDecimal ds).map numberValue, fun rest => decode_number ds rest hn hds⟩
  · obtain ⟨d, ds, rfl⟩ := List.exists_cons_of_ne_nil hn
    refine ⟨.ok (numberValue (hexDigitsValue (d :: ds))), fun rest => ?_⟩
    apply decode_read
    have hspan := spanWhile_stop isHexDigit (d :: ds) rest ';' hhs (by decide)
    have hnone (cs : Text) : spanWhile isAsciiDigit ('x' :: cs) = ([], 'x' :: cs) ∧
        spanWhile isAsciiDigit ('X' :: cs) = ([], 'X' :: cs) := ⟨rfl, rfl⟩
    rcases hx with rfl | rfl
    · rw [List.cons_append, List.cons_append, readReference?, (hnone _).1]
      simp only [hspan, skipSemicolon]
    · rw [List.cons_append, List.cons_append, readReference?, (hnone _).2]
      simp only [hspan, skipSemicolon]

theorem decode_amp (rest : Text) :
    decode ("&amp;".toList ++ rest) = (decode rest).map ('&' :: ·) := by
  have h : readReference? ("&amp;".toList ++ rest) =
      some (.ok (nameValue "amp".toList true), rest) := rfl
  rw [decode_read h, show nameValue "amp".toList true = ['&'] by decide +kernel]
  rfl

theorem decode_lt (rest : Text) :
    decode ("&lt;".toList ++ rest) = (decode rest).map ('<' :: ·) := by
  have h : readReference? ("&lt;".toList ++ rest) =
      some (.ok (nameValue "lt".toList true), rest) := rfl
  rw [decode_read h, show nameValue "lt".toList true = ['<'] by decide +kernel]
  rfl

theorem decode_gt (rest : Text) :
    decode ("&gt;".toList ++ rest) = (decode rest).map ('>' :: ·) := by
  have h : readReference? ("&gt;".toList ++ rest) =
      some (.ok (nameValue "gt".toList true), rest) := rfl
  rw [decode_read h, show nameValue "gt".toList true = ['>'] by decide +kernel]
  rfl

end Changelog.Entity
