import Changelog.Markdown.Span.Shelf
import Changelog.Proofs.Marks.Each
import Changelog.Proofs.Text.Cuts

/-!
# Marks in texts that are changed

Texts are written as markup, and marks are replaced by what they stand for.  Neither takes a part of
another mark away, and a text whose marks are whole has a character for each mark of an escaped one.
-/

namespace Changelog

open Text

namespace Mark

variable {least : Nat}

/-! ### Texts written as markup -/

theorem spares_characters (inValue : Bool) : Spares (Escape.characters inValue) where
  nil := rfl
  inner c cs h := by
    have hquote : c ≠ '"' := ne_of_isInner h (by decide)
    rw [Escape.characters, if_neg (ne_of_isInner h (by decide)),
      if_neg (ne_of_isInner h (by decide)), if_neg (ne_of_isInner h (by decide)),
      if_neg fun hq => hquote hq.1]
    rfl

theorem characters_cons (inValue : Bool) (c : Char) (cs : Text) :
    ∃ image, Escape.characters inValue (c :: cs) = image ++ Escape.characters inValue cs ∧
      (c = opening ∧ image = [c] ∨ opening ∉ image) := by
  refine ⟨_, rfl, ?_⟩
  by_cases hc : c = opening
  · subst hc
    exact Or.inl ⟨rfl, rfl⟩
  · refine Or.inr ?_
    split
    · split <;> decide
    · split
      · decide
      · split
        · decide
        · split
          · decide
          · exact fun hm => hc (List.mem_singleton.mp hm).symm

theorem Whole.text {cs : Text} (h : Whole least cs) : Whole least (Escape.text cs) :=
  Each.change _ rfl (characters_cons false) (fun _ => (spares_characters false).begun) h

theorem Clipped.value {cs : Text} (h : Clipped least cs) : Clipped least (Escape.value cs) :=
  Each.change _ rfl (characters_cons true)
    (fun _ => Or.imp (spares_characters true).begun (spares_characters true).front) h

/-- A mark that an attribute clips stays so behind the quotation mark. -/
theorem Clipped.quoted {cs : Text} (h : Clipped least cs) : Written least (cs ++ ['"']) := by
  refine Each.append ?_ h (each_of_not_mem (by decide))
  intro front hfront
  rcases hfront with hfront | hfront
  · exact Or.inl (hfront.append _)
  · exact Or.inr ⟨front, [], hfront, rfl⟩

theorem codeChar_of_isInner {c : Char} (h : isInner c = true) : Escape.codeChar c = [c] := by
  rw [Escape.codeChar, if_neg (ne_of_isInner h (by decide)),
    if_neg (ne_of_isInner h (by decide)), if_neg (ne_of_isInner h (by decide))]

theorem opening_not_mem_codeChar {c : Char} (h : c ≠ opening) :
    opening ∉ Escape.codeChar c := by
  unfold Escape.codeChar
  split
  · decide
  · split
    · decide
    · split
      · decide
      · exact fun hm => h (List.mem_singleton.mp hm).symm

theorem Whole.code {cs : Text} (h : Whole least cs) : Whole least (Escape.code cs) := by
  have hspares : Spares Escape.code := ⟨rfl, fun c cs hc => by
    rw [Escape.code, List.flatMap_cons, codeChar_of_isInner hc]
    rfl⟩
  refine Each.change Escape.code rfl ?_ (fun _ => hspares.begun) h
  intro c cs
  refine ⟨Escape.codeChar c, List.flatMap_cons, ?_⟩
  by_cases hc : c = opening
  · subst hc
    exact Or.inl ⟨rfl, rfl⟩
  · exact Or.inr (opening_not_mem_codeChar hc)

/-- White space made spaces leaves marks as they are. -/
theorem Clipped.mapSpaces {cs : Text} (h : Clipped least cs) :
    Clipped least (cs.map fun c => if isSpace c then ' ' else c) := by
  let change : Text → Text := List.map fun c => if isSpace c then ' ' else c
  have hspares : Spares change := by
    refine ⟨rfl, fun c cs hc => ?_⟩
    have hspace : ¬isSpace c = true := fun hs => by
      rw [isInner_of_isSpace hs] at hc
      cases hc
    show (if isSpace c then ' ' else c) :: change cs = c :: change cs
    rw [if_neg hspace]
  refine Each.change change rfl ?_
    (fun _ => Or.imp hspares.begun hspares.front) h
  intro c cs
  refine ⟨[if isSpace c then ' ' else c], rfl, ?_⟩
  by_cases hc : c = opening
  · subst hc
    exact Or.inl ⟨rfl, rfl⟩
  · refine Or.inr fun hm => ?_
    have heq := List.mem_singleton.mp hm
    split at heq
    · revert heq
      decide
    · exact hc heq.symm

/-! ### Marks of spans -/

theorem readDigits?_eq {isDigit : Char → Bool} {cs digits rest : Text}
    (h : readDigits? isDigit cs = some (digits, rest)) :
    cs = digits ++ closing :: rest ∧ digits ≠ [] ∧ ∀ c ∈ digits, isDigit c = true := by
  have hsplit := spanWhile_append isDigit cs
  have hall := spanWhile_all isDigit cs
  unfold readDigits? at h
  split at h
  · cases h
  · next d ds e left hs =>
    rw [hs] at hsplit hall
    split at h
    · next he =>
      cases h
      exact ⟨he ▸ hsplit.symm, List.cons_ne_nil d ds, List.all_eq_true.mp hall⟩
    · cases h
  · cases h

theorem readEscaped?_eq {cs digits rest : Text} (h : Mark.readEscaped? cs = some (digits, rest)) :
    cs = opening :: (digits ++ closing :: rest) ∧ digits ≠ [] ∧
      ∀ c ∈ digits, isDigit c = true := by
  unfold Mark.readEscaped? at h
  split at h
  · next c cs =>
    split at h
    · next hc =>
      obtain ⟨hcs, hsome, hall⟩ := readDigits?_eq h
      exact ⟨by rw [hc, hcs], hsome, hall⟩
    · cases h
  · cases h

theorem readEscaped?_suffix {cs digits rest : Text}
    (h : Mark.readEscaped? cs = some (digits, rest)) : rest <:+ cs := by
  rw [(readEscaped?_eq h).1]
  exact ⟨opening :: (digits ++ [closing]), by simp only [List.cons_append, List.append_assoc,
    List.nil_append]⟩

theorem readEscaped?_append {cs digits rest : Text}
    (h : Mark.readEscaped? cs = some (digits, rest)) (back : Text) :
    Mark.readEscaped? (cs ++ back) = some (digits, rest ++ back) := by
  obtain ⟨rfl, hne, hd⟩ := readEscaped?_eq h
  rw [List.cons_append, List.append_assoc, List.cons_append]
  exact readEscaped?_closing hne hd (rest ++ back)

theorem readWord?_eq {word cs digits rest : Text} (h : readWord? word cs = some (digits, rest)) :
    cs = opening :: (word ++ (digits ++ closing :: rest)) ∧ Digits digits := by
  unfold readWord? at h
  split at h
  · next c cs =>
    split at h
    · next hc =>
      obtain ⟨behind, hafter, hdigits⟩ := Option.bind_eq_some_iff.mp h
      obtain ⟨hbehind, -, hall⟩ := readDigits?_eq hdigits
      rw [hc, (after?_eq_some_iff word cs behind).mp hafter, hbehind]
      exact ⟨rfl, hall⟩
    · cases h
  · cases h

theorem readWord?_suffix {word cs digits rest : Text}
    (h : readWord? word cs = some (digits, rest)) : rest <:+ cs ∧ rest.length < cs.length := by
  rw [(readWord?_eq h).1]
  refine ⟨⟨opening :: (word ++ (digits ++ [closing])), ?_⟩, ?_⟩
  · simp only [List.cons_append, List.append_assoc, List.nil_append]
  · simp only [List.length_cons, List.length_append]
    omega

theorem readWord?_of_ne {word cs : Text} {c : Char} (h : c ≠ opening) :
    readWord? word (c :: cs) = none :=
  if_neg h

/-- Marks of spans are replaced without a look at the characters of other marks. -/
theorem spares_replaceMarks (shelf : Shelf) (image : Span → Text) :
    Spares (shelf.replaceMarks image) where
  nil := rfl
  inner c cs h := by
    apply replaceAll_keep
    rw [readSpan?, readWord?_of_ne (ne_of_isInner h (by decide))]
    rfl

theorem replaceMarks_quote (shelf : Shelf) (image : Span → Text) (cs : Text) :
    shelf.replaceMarks image ('"' :: cs) = '"' :: shelf.replaceMarks image cs := by
  apply replaceAll_keep
  rw [readSpan?, readWord?_of_ne (by decide)]
  rfl

section

variable {shelf : Shelf} {image : Span → Text}

theorem find?_mem {digits : Text} {span : Span} (h : shelf.find? digits = some span) :
    span ∈ shelf.spans.toList := by
  unfold Shelf.find? at h
  dsimp only at h
  split at h
  · exact Array.mem_toList_iff.mpr (Array.mem_of_getElem? h)
  · cases h

theorem Each.replaceMarks {begins begins' part : Text → Prop}
    (hi : ∀ span ∈ shelf.spans.toList, Each part (image span))
    (hpart : ∀ front rest, part front → begins' (front ++ rest))
    (hkeep : ∀ cs, begins cs → begins' (shelf.replaceMarks image cs)) {cs : Text}
    (h : Each begins cs) : Each begins' (shelf.replaceMarks image cs) := by
  refine Each.replaceAll part ?_ ?_ hpart hkeep h
  · intro cs value rest hr
    obtain ⟨r, hread, heq⟩ := Option.map_eq_some_iff.mp hr
    cases heq
    exact (readWord?_suffix hread).2
  · intro cs value rest hr
    obtain ⟨r, hread, heq⟩ := Option.map_eq_some_iff.mp hr
    cases heq
    refine ⟨?_, (readWord?_suffix hread).1⟩
    cases hf : shelf.find? r.1 with
    | none => trivial
    | some span => exact hi span (find?_mem hf)

theorem Whole.replaceMarks (hi : ∀ span ∈ shelf.spans.toList, Whole least (image span))
    {cs : Text} (h : Whole least cs) : Whole least (shelf.replaceMarks image cs) :=
  Each.replaceMarks hi (fun _ rest hf => hf.append rest)
    (fun _ => (spares_replaceMarks shelf image).begun) h

theorem Clipped.replaceMarks (hi : ∀ span ∈ shelf.spans.toList, Whole least (image span))
    {cs : Text} (h : Clipped least cs) : Clipped least (shelf.replaceMarks image cs) :=
  Each.replaceMarks hi (fun _ rest hf => Or.inl (hf.append rest))
    (fun _ => Or.imp (spares_replaceMarks shelf image).begun
      (spares_replaceMarks shelf image).front) h

theorem Written.replaceMarks (hi : ∀ span ∈ shelf.spans.toList, Written least (image span))
    {cs : Text} (h : Written least cs) : Written least (shelf.replaceMarks image cs) :=
  Each.replaceMarks hi (fun _ rest hf => hf.append rest)
    (fun _ => (spares_replaceMarks shelf image).quoted (replaceMarks_quote shelf image)) h

end

/-! ### Marks of escaped characters -/

theorem readDigits?_of_head {cs : Text} {isDigit : Char → Bool}
    (h : ∀ c ∈ cs.head?, isDigit c = false) : Mark.readDigits? isDigit cs = none := by
  cases cs with
  | nil => rfl
  | cons c cs =>
    have hc : ¬isDigit c = true := Bool.eq_false_iff.mp (h c rfl)
    simp only [Mark.readDigits?, spanWhile, if_neg hc]

/-- The number in a mark that is not cut is that of a character. -/
theorem Begun.readDigits? {cs digits rest : Text} (h : Begun least cs)
    (hr : Mark.readDigits? isDigit cs = some (digits, rest)) :
    ∃ c, c ≠ opening ∧ digits = decimal c.toNat := by
  have hletter {c : Char} {more : Text} (hc : isDigit c = false) (hcs : cs = c :: more) : False := by
    rw [hcs, readDigits?_of_head fun d hd => Option.some.inj hd ▸ hc] at hr
    cases hr
  cases h with
  | @word c hc more => exact (hletter (by rcases hc with rfl | rfl <;> decide) rfl).elim
  | @whole body hbody more =>
    cases hbody with
    | raw => exact (hletter (c := 'w') (by decide) rfl).elim
    | @escaped c hc =>
      rw [readDigits?_decimal isDigit isDigit_of_isAsciiDigit (by decide)] at hr
      cases hr
      exact ⟨c, hc, rfl⟩

/-- A mark that was cut has no end to be read. -/
theorem Front.readDigits? {front : Text} (h : Front least front) :
    Mark.readDigits? isDigit front = none := by
  refine Option.eq_none_iff_forall_not_mem.mpr fun r hr => ?_
  refine h.ne_closing closing ?_ rfl
  rw [(readDigits?_eq hr).1]
  exact List.mem_append_right _ List.mem_cons_self

theorem Front.readDigits?_quote {front : Text} (h : Front least front) (more : Text) :
    Mark.readDigits? isDigit (front ++ '"' :: more) = none := by
  refine Option.eq_none_iff_forall_not_mem.mpr fun r hr => ?_
  obtain ⟨hsplit, -, hdigits⟩ := readDigits?_eq hr
  obtain ⟨body, hbody, hfront⟩ := h
  -- The digits end where the front does, and a quotation mark is no end of a mark.
  have hquote : ∀ c ∈ r.1, c ≠ '"' := fun c hc he => absurd (hdigits c hc) (by rw [he]; decide)
  rcases List.append_eq_append_iff.mp hsplit with ⟨left, hleft, hrest⟩ | ⟨left, hleft, hrest⟩
  · cases left with
    | nil => cases (List.cons.inj hrest).1
    | cons d left =>
      obtain ⟨rfl, -⟩ := List.cons.inj hrest
      exact hquote '"' (hleft ▸ List.mem_append_right _ List.mem_cons_self) rfl
  · cases left with
    | nil => cases (List.cons.inj hrest).1
    | cons d left =>
      obtain ⟨rfl, -⟩ := List.cons.inj hrest
      refine hbody.ne_closing closing (hfront.subset ?_) rfl
      exact hleft ▸ List.mem_append_right _ List.mem_cons_self

theorem Each.readEscaped? {begins : Text → Prop}
    (hbegins : ∀ cs digits rest, begins cs →
      Mark.readDigits? isDigit cs = some (digits, rest) → ∃ c, c ≠ opening ∧ digits = decimal c.toNat)
    {cs digits rest : Text} (h : Each begins cs)
    (hr : Mark.readEscaped? cs = some (digits, rest)) :
    (∃ c, c ≠ opening ∧ digits = decimal c.toNat) ∧ rest <:+ cs := by
  unfold Mark.readEscaped? at hr
  split at hr
  · next c cs =>
    split at hr
    · next hc =>
      refine ⟨hbegins cs digits rest (h.1 hc) hr, ?_⟩
      rw [(readDigits?_eq hr).1]
      exact ⟨c :: (digits ++ [closing]), by simp only [List.cons_append, List.append_assoc,
        List.nil_append]⟩
    · cases hr
  · cases hr

theorem Quoted.readDigits? {cs digits rest : Text} (h : Quoted least cs)
    (hr : Mark.readDigits? isDigit cs = some (digits, rest)) :
    ∃ c, c ≠ opening ∧ digits = decimal c.toNat := by
  rcases h with h | ⟨front, more, hfront, rfl⟩
  · exact h.readDigits? hr
  · rw [hfront.readDigits?_quote] at hr
    cases hr

theorem opening_not_mem_of_inner {front : Text} (hi : ∀ c ∈ front, isInner c = true) :
    opening ∉ front :=
  fun hm => ne_of_isInner (hi opening hm) (by decide) rfl

section

variable {ε : Type} {recognise : Text → Option (Except ε Text × Text)}
  (hr : ∀ c cs, c ≠ opening → recognise (c :: cs) = none)

include hr

/-- A replacement with values that may fail leaves a front without the start of a mark as it is. -/
theorem replaceAll?_kept {front rest shown : Text} (hf : opening ∉ front)
    (hs : Text.replaceAll? recognise (front ++ rest) = .ok shown) :
    ∃ behind, Text.replaceAll? recognise rest = .ok behind ∧ shown = front ++ behind := by
  have happend := @replaceAll?_append ε recognise front rest fun d ds ⟨before, hb⟩ =>
    hr d _ fun hd => hf (by rw [hb, hd]; exact List.mem_append_right before List.mem_cons_self)
  rw [happend] at hs
  obtain ⟨behind, hbehind, hshown⟩ := Text.map_ok hs
  exact ⟨behind, hbehind, hshown.symm⟩

theorem Begun.replaceAll? {cs shown : Text} (h : Begun least cs)
    (hs : Text.replaceAll? recognise cs = .ok shown) : Begun least shown := by
  cases h with
  | @word c hc rest =>
    have hfree : opening ∉ [c] := by rcases hc with rfl | rfl <;> decide
    obtain ⟨behind, -, rfl⟩ := replaceAll?_kept hr hfree hs
    exact .word hc behind
  | @whole body hbody rest =>
    rw [← List.singleton_append, ← List.append_assoc] at hs
    obtain ⟨behind, -, rfl⟩ :=
      replaceAll?_kept hr (opening_not_mem_of_inner hbody.inner_closed) hs
    rw [List.append_assoc]
    exact .whole hbody behind

theorem Front.replaceAll? {front shown : Text} (h : Front least front)
    (hs : Text.replaceAll? recognise front = .ok shown) : Front least shown := by
  rw [← List.append_nil front] at hs
  obtain ⟨behind, hbehind, rfl⟩ := replaceAll?_kept hr (opening_not_mem_of_inner h.inner) hs
  cases hbehind
  rwa [List.append_nil]

theorem Quoted.replaceAll? {cs shown : Text} (h : Quoted least cs)
    (hs : Text.replaceAll? recognise cs = .ok shown) : Quoted least shown := by
  rcases h with h | ⟨front, more, hf, rfl⟩
  · exact Or.inl (h.replaceAll? hr hs)
  · have hfree : opening ∉ front ++ ['"'] := by
      rw [List.mem_append, not_or]
      exact ⟨opening_not_mem_of_inner hf.inner, by decide⟩
    rw [← List.singleton_append, ← List.append_assoc] at hs
    obtain ⟨behind, -, rfl⟩ := replaceAll?_kept hr hfree hs
    exact Or.inr ⟨front, behind, hf, by rw [List.append_assoc, List.singleton_append]⟩

end

/-- Marks of escaped characters have their characters when no start of a mark leads to another
number. -/
theorem Each.unescape {begins : Text → Prop}
    (hbegins : ∀ cs digits rest, begins cs →
      Mark.readDigits? isDigit cs = some (digits, rest) → ∃ c, c ≠ opening ∧ digits = decimal c.toNat)
    {cs : Text} (h : Each begins cs) : ∃ shown, Mark.unescape cs = .ok shown := by
  induction hn : cs.length using Nat.strongRecOn generalizing cs with
  | ind n ih =>
    cases cs with
    | nil => exact ⟨[], rfl⟩
    | cons c cs =>
      unfold Mark.unescape at ih ⊢
      cases hr : Mark.readEscaped? (c :: cs) with
      | none =>
        obtain ⟨shown, hshown⟩ := ih cs.length (hn ▸ Nat.lt_succ_self _) h.2 rfl
        rw [replaceAll?_keep c cs (by rw [hr]; rfl), hshown]
        exact ⟨c :: shown, rfl⟩
      | some r =>
        obtain ⟨digits, rest⟩ := r
        obtain ⟨⟨d, -, rfl⟩, hsuffix⟩ := Each.readEscaped? hbegins h hr
        obtain ⟨shown, hshown⟩ := ih rest.length (hn ▸ readEscaped?_lt hr) (h.suffix hsuffix) rfl
        have hread : (Mark.readEscaped? (c :: cs)).map
            (fun r => ((escapedChar r.1).map ([·]), r.2)) = some (.ok [d], rest) := by
          rw [hr, Option.map_some, escapedChar_decimal]
          rfl
        rw [replaceAll?_read reads_escaped hread, hshown]
        exact ⟨[d] ++ shown, rfl⟩

theorem clipped_readDigits? {cs digits rest : Text} (h : Begun least cs ∨ Front least cs)
    (hr : Mark.readDigits? isDigit cs = some (digits, rest)) :
    ∃ c, c ≠ opening ∧ digits = decimal c.toNat := by
  rcases h with h | h
  · exact h.readDigits? hr
  · rw [h.readDigits?] at hr
    cases hr

theorem Written.unescape {cs : Text} (h : Written least cs) :
    ∃ shown, Mark.unescape cs = .ok shown :=
  Each.unescape (fun _ _ _ hq => hq.readDigits?) h

theorem Clipped.unescape {cs : Text} (h : Clipped least cs) :
    ∃ shown, Mark.unescape cs = .ok shown :=
  Each.unescape (fun _ _ _ => clipped_readDigits?) h

/-- Escaped characters put back begin no mark, and leave the marks as they are. -/
theorem Each.of_unescape {begins : Text → Prop}
    (hbegins : ∀ cs digits rest, begins cs →
      Mark.readDigits? isDigit cs = some (digits, rest) → ∃ c, c ≠ opening ∧ digits = decimal c.toNat)
    (hkeep : ∀ cs shown, begins cs → Mark.unescape cs = .ok shown → begins shown)
    {cs shown : Text} (h : Each begins cs) (hs : Mark.unescape cs = .ok shown) :
    Each begins shown := by
  refine Each.replaceAll? (fun _ => False) reads_escaped ?_ (fun _ _ hf => hf.elim) hkeep h hs
  intro cs value rest hw hr
  obtain ⟨r, hread, heq⟩ := Option.map_eq_some_iff.mp hr
  obtain ⟨⟨c, hc, hdigits⟩, hsuffix⟩ := Each.readEscaped? hbegins hw hread
  rw [hdigits, escapedChar_decimal] at heq
  cases heq
  exact ⟨each_of_not_mem fun hm => hc (List.mem_singleton.mp hm).symm, hsuffix⟩

theorem readEscaped?_apart (c : Char) (cs : Text) (hc : c ≠ opening) :
    (Mark.readEscaped? (c :: cs)).map (fun r => ((escapedChar r.1).map ([·]), r.2)) = none := by
  rw [readEscaped?_of_ne cs hc]
  rfl

theorem Whole.of_unescape {cs shown : Text} (h : Whole least cs)
    (hs : Mark.unescape cs = .ok shown) : Whole least shown :=
  Each.of_unescape (fun _ _ _ hb => hb.readDigits?)
    (fun _ _ hb => hb.replaceAll? readEscaped?_apart) h hs

theorem Clipped.of_unescape {cs shown : Text} (h : Clipped least cs)
    (hs : Mark.unescape cs = .ok shown) : Clipped least shown := by
  refine Each.of_unescape (fun _ _ _ => clipped_readDigits?) (fun cs shown hb hs => ?_) h hs
  exact hb.imp (·.replaceAll? readEscaped?_apart hs) (·.replaceAll? readEscaped?_apart hs)

theorem Written.of_unescape {cs shown : Text} (h : Written least cs)
    (hs : Mark.unescape cs = .ok shown) : Written least shown :=
  Each.of_unescape (fun _ _ _ hb => hb.readDigits?)
    (fun _ _ hb => hb.replaceAll? readEscaped?_apart) h hs

/-! ### Marks of stored markup -/

theorem readTag?_eq {cs inside rest : Text} (h : Anchor.readTag? cs = some (inside, rest)) :
    cs = '<' :: (inside ++ '>' :: rest) := by
  unfold Anchor.readTag? at h
  split at h
  · next c cs =>
    split at h
    · cases h
    · split at h
      · next body d left hs =>
        cases h
        obtain ⟨hcs, -, hd⟩ := spanWhile_spec hs
        have hclose : d = '>' := by simpa using hd d rfl
        rw [hcs, hclose, List.cons_append]
      · cases h
  · cases h

theorem Written.dropTags {cs : Text} (h : Written least cs) :
    Written least (Anchor.dropTags cs) := by
  have hcut {cs value rest : Text}
      (hr : (Anchor.readTag? cs).map (fun r => (([] : Text), r.2)) = some (value, rest)) :
      value = [] ∧ ∃ inside, cs = '<' :: (inside ++ '>' :: rest) := by
    obtain ⟨r, hread, heq⟩ := Option.map_eq_some_iff.mp hr
    cases heq
    exact ⟨rfl, r.1, readTag?_eq hread⟩
  have hkeep (c : Char) (cs : Text) (hc : c ≠ '<') :
      Anchor.dropTags (c :: cs) = c :: Anchor.dropTags cs := by
    apply replaceAll_keep
    cases hread : Anchor.readTag? (c :: cs) with
    | none => rfl
    | some r => exact absurd (List.cons.inj (readTag?_eq hread)).1 hc
  have hspares : Spares Anchor.dropTags :=
    ⟨rfl, fun c cs hc => hkeep c cs (ne_of_isInner hc (by decide))⟩
  refine Each.replaceAll (Begun least) ?_ ?_ (fun _ rest hf => Or.inl (hf.append rest))
    (fun _ => hspares.quoted fun cs => hkeep '"' cs (by decide)) h
  · intro cs value rest hr
    obtain ⟨-, inside, rfl⟩ := hcut hr
    simp only [List.length_cons, List.length_append]
    omega
  · intro cs value rest hr
    obtain ⟨rfl, inside, rfl⟩ := hcut hr
    exact ⟨trivial, '<' :: (inside ++ ['>']),
      by simp only [List.cons_append, List.append_assoc, List.nil_append]⟩

theorem Body.of_raw {digits : Text} (h : Body least (rawWord ++ digits)) :
    ∃ n, least ≤ n ∧ digits = decimal n := by
  generalize hbody : rawWord ++ digits = body at h
  cases h with
  | @raw n hn => exact ⟨n, hn, List.append_cancel_left hbody⟩
  | @escaped c _ =>
    have hw : 'w' ∈ decimal c.toNat := hbody ▸ List.mem_append_left _ (by decide)
    exact absurd (digits_decimal c.toNat 'w' hw) (by decide)

/-- The number in a mark of stored markup that is not cut is `least` or more. -/
theorem Quoted.of_raw {digits rest : Text}
    (h : Quoted least (rawWord ++ digits ++ closing :: rest)) (hd : Digits digits) :
    ∃ n, least ≤ n ∧ digits = decimal n := by
  let isOpen : Char → Bool := fun c => isInner c && c != closing
  have hopen {front : Text} (hi : ∀ c ∈ front, isInner c = true)
      (hc : ∀ c ∈ front, c ≠ closing) : ∀ c ∈ front, isOpen c = true :=
    fun c hm => Bool.and_eq_true_iff.mpr ⟨hi c hm, bne_iff_ne.mpr (hc c hm)⟩
  have hword : ∀ c ∈ rawWord ++ digits, isOpen c = true := by
    refine List.forall_mem_append.mpr ⟨List.all_eq_true.mp (by rfl), hopen hd.inner ?_⟩
    exact fun c hm he => absurd (hd c hm) (by rw [he]; decide)
  -- The first end of a mark or character of no mark is found in one place only.
  have hspan {front more : Text} {c : Char} (hf : ∀ d ∈ front, isOpen d = true)
      (hc : isOpen c = false) (heq : rawWord ++ digits ++ closing :: rest = front ++ c :: more) :
      rawWord ++ digits = front ∧ closing = c := by
    have hfound := Entity.spanWhile_stop isOpen front more c hf hc
    rw [← heq, Entity.spanWhile_stop isOpen _ rest closing hword (by decide)] at hfound
    exact ⟨congrArg Prod.fst hfound, (List.cons.inj (congrArg Prod.snd hfound)).1⟩
  generalize hcs : rawWord ++ digits ++ closing :: rest = cs at h hspan
  rcases h with h | ⟨front, more, hf, rfl⟩
  · cases h with
    | @word c hc more =>
      obtain ⟨rfl, -⟩ := List.cons.inj hcs
      rcases hc with hc | hc <;> cases hc
    | @whole body hbody more =>
      obtain ⟨rfl, -⟩ := hspan (hopen hbody.inner hbody.ne_closing) (by decide) rfl
      exact hbody.of_raw
  · obtain ⟨-, hc⟩ := hspan (hopen hf.inner hf.ne_closing) (by decide) rfl
    cases hc

theorem Written.readRaw? {cs digits rest : Text} (h : Written least cs)
    (hr : Mark.readRaw? cs = some (digits, rest)) :
    (∃ n, least ≤ n ∧ digits = decimal n) ∧ rest <:+ cs := by
  obtain ⟨rfl, hd⟩ := readWord?_eq hr
  have hmark := h.1 rfl
  rw [← List.append_assoc] at hmark
  exact ⟨hmark.of_raw hd, (readWord?_suffix hr).1⟩

theorem whole_raw {n : Nat} (h : least ≤ n) : Whole least (raw n) := by
  have htail := opening_not_mem_raw_tail n
  rw [← List.append_assoc] at htail
  exact ⟨fun _ => .whole (.raw h) [], each_of_not_mem htail⟩

theorem Written.resolveRaw {stash : Stash}
    (hs : ∀ entry ∈ stash.entries, Written least entry) {cs shown : Text}
    (h : Written least cs) (hr : Anchor.resolveRaw stash cs = .ok shown) :
    Written least shown := by
  refine Each.replaceAll? (Quoted least) Token.reads_raw ?_ (fun _ rest hf => hf.append rest) ?_ h hr
  · intro cs value rest hw hr
    obtain ⟨⟨digits, left⟩, hread, heq⟩ := Option.map_eq_some_iff.mp hr
    obtain ⟨hvalue, rfl⟩ := Prod.mk.inj heq
    refine ⟨?_, (readWord?_suffix hread).1⟩
    obtain ⟨index, -, rfl⟩ := Text.map_ok hvalue
    split
    · next markup hmarkup => exact (hs markup (List.mem_of_getElem? hmarkup)).dropTags
    · obtain ⟨⟨n, hn, rfl⟩, -⟩ := Written.readRaw? hw hread
      exact (whole_raw hn).written
  · intro cs shown hq hs
    exact hq.replaceAll? (fun c cs hc => by rw [readRaw?_of_ne cs hc]; rfl) hs

end Mark

end Changelog
