import Changelog.Proofs.Anchors.Ampersands

/-!
# Headings read back from the page

The writer escapes each text of a heading by itself, and a reader of the page decodes what was
written; the anchor decodes all texts at once as they are.  `textOf_eq_readBack_iff` tells when both
come to the same text: when every ampersand begins a closed reference within its own text, or stands
for itself in front of all that follows it.
-/

namespace Changelog

open Text

namespace Element

mutual

/-- The texts inside an element, in document order. -/
def innerTexts : Tree → List Text
  | ⟨_, _, text, _, children⟩ => text.getD [] :: innerTextsAll children

/-- The texts in elements and the tails after them. -/
def innerTextsAll : List Tree → List Text
  | [] => []
  | e :: es => innerTexts e ++ e.tail.getD [] :: innerTextsAll es

end

mutual

theorem flatten_innerTexts : ∀ e : Tree, (innerTexts e).flatten = e.innerText
  | ⟨tag, attrs, text, tail, children⟩ => by
    rw [innerTexts, innerText, List.flatten_cons, flatten_innerTextsAll children]

theorem flatten_innerTextsAll : ∀ es : List Tree, (innerTextsAll es).flatten = innerTextAll es
  | [] => rfl
  | e :: es => by
    rw [innerTextsAll, innerTextAll, List.flatten_append, List.flatten_cons, flatten_innerTexts e,
      flatten_innerTextsAll es, List.append_assoc]

end

end Element

/-! ### References that are read -/

namespace Entity

theorem two_le_length_of_legacyValue? {name value : Text} (h : legacyValue? name = some value) :
    2 ≤ name.length := by
  have hall : legacyNames.all (fun n => decide (2 ≤ n.toList.length)) = true := by decide +kernel
  unfold legacyValue? at h
  split at h
  · next hname =>
    obtain ⟨n, hn, heq⟩ := List.any_eq_true.mp hname
    rw [← eq_of_beq heq]
    exact of_decide_eq_true (List.all_eq_true.mp hall n hn)
  · cases h

theorem value?_length_le_name {name value : Text} (h : legacyValue? name = some value) :
    value.length ≤ name.length := by
  have hname := two_le_length_of_legacyValue? h
  unfold legacyValue? at h
  split at h
  · exact Nat.le_trans (value?_length_le h) hname
  · cases h

theorem longestLegacy_length_le {name value left : Text} {width : Nat}
    (h : longestLegacy name width = some (value, left)) :
    value.length + left.length ≤ name.length := by
  induction width with
  | zero => cases h
  | succ width ih =>
    unfold longestLegacy at h
    split at h
    · cases h
    · split at h
      · next found =>
        cases h
        have hfront := value?_length_le_name found
        have hlen := congrArg List.length (List.take_append_drop (width + 1) name)
        rw [List.length_append] at hlen
        omega
      · exact ih h

/-- A name stands for itself, or for fewer characters than it is written with. -/
theorem nameValue_literal_or (name : Text) (closed : Bool) (hn : name ≠ []) :
    nameValue name closed = '&' :: (name ++ if closed then [';'] else []) ∨
      (nameValue name closed).length ≤ (name ++ if closed then [';'] else []).length := by
  have hpos := List.length_pos_iff.mpr hn
  unfold nameValue
  dsimp only
  rw [List.length_append]
  split
  · next value found =>
    refine Or.inr ?_
    cases closed with
    | true =>
      have hlen := value?_length_le found
      show value.length ≤ name.length + 1
      omega
    | false => exact Nat.le_add_right_of_le (value?_length_le_name found)
  · split
    · next value left found =>
      refine Or.inr ?_
      have hlen := longestLegacy_length_le found
      rw [List.length_append, List.length_append]
      omega
    · exact Or.inl rfl

theorem not_mem_spanWhile {p : Char → Bool} {cs front rest : Text} {c : Char}
    (h : spanWhile p cs = (front, rest)) (hc : p c = false) : c ∉ front := by
  intro hm
  have hp := (spanWhile_spec h).2.1 c hm
  rw [hc] at hp
  cases hp

/-- The digits of a numeric reference, with the semicolon behind them if there is one. -/
theorem number_length_le {p : Char → Bool} {cs rest : Text} {d : Char} {ds : Text}
    (h : spanWhile p cs = (d :: ds, rest)) (hp : p '&' = false) :
    ∃ used, cs = used ++ skipSemicolon rest ∧ '&' ∉ used ∧ 1 ≤ used.length := by
  have hdigits := not_mem_spanWhile h hp
  have hcs := (spanWhile_spec h).1
  unfold skipSemicolon
  split
  · next rest =>
    refine ⟨d :: ds ++ [';'], ?_, ?_, Nat.le_add_left _ _⟩
    · rw [hcs, List.append_assoc]
      rfl
    · rw [List.mem_append, not_or]
      exact ⟨hdigits, by decide⟩
  · exact ⟨d :: ds, hcs, hdigits, Nat.le_add_left _ _⟩

/-- A reference that is read stands for itself, or for fewer characters than it is written with. -/
theorem readReference?_literal_or {cs left : Text} {value : Except NumberError Text}
    (h : readReference? ('&' :: cs) = some (value, left)) :
    ∃ used, cs = used ++ left ∧ '&' ∉ used ∧
      ∀ v, value = .ok v → v = '&' :: used ∨ v.length ≤ used.length := by
  have hnumber (n : Nat) {used : Text} (hused : 1 ≤ used.length) :
      (numberValue n).length ≤ used.length := Nat.le_trans (numberValue_length_le n) hused
  have hhex {x d : Char} {ds hs digits rest : Text} {n : Nat} (hamp : '&' ≠ x)
      (hspan : spanWhile isAsciiDigit ds = ([], x :: hs))
      (hread : spanWhile isHexDigit hs = (d :: digits, rest)) :
      ∃ used, '#' :: ds = used ++ skipSemicolon rest ∧ '&' ∉ used ∧
        ∀ v, (.ok (numberValue n) : Except NumberError Text) = .ok v →
          v = '&' :: used ∨ v.length ≤ used.length := by
    have hds := (spanWhile_spec hspan).1
    obtain ⟨used, hhs, hfree, hlen⟩ := number_length_le hread (by decide)
    refine ⟨'#' :: x :: used, by rw [hds, hhs]; rfl, ?_, fun v hv => Or.inr ?_⟩
    · rw [List.mem_cons, List.mem_cons, not_or, not_or]
      exact ⟨by decide, hamp, hfree⟩
    · rw [← Except.ok.inj hv]
      exact hnumber n (Nat.le_succ_of_le (Nat.le_succ_of_le hlen))
  unfold readReference? at h
  split at h
  · next ds heq =>
    cases heq
    split at h
    · next hs =>
      cases h
      obtain ⟨used, hcs, hamp, hlen⟩ := number_length_le hs (by decide)
      refine ⟨'#' :: used, by rw [hcs, List.cons_append], ?_, fun v hv => Or.inr ?_⟩
      · rw [List.mem_cons, not_or]
        exact ⟨by decide, hamp⟩
      · obtain ⟨n, -, rfl⟩ := Text.map_ok hv
        exact hnumber n (Nat.le_succ_of_le hlen)
    · next hs hspan =>
      split at h
      · next hx =>
        cases h
        exact hhex (by decide) hspan hx
      · cases h
    · next hs hspan =>
      split at h
      · next hx =>
        cases h
        exact hhex (by decide) hspan hx
      · cases h
    · cases h
  · next ds _ heq =>
    cases heq
    dsimp only at h
    generalize hname : (spanWhile isNameChar cs).1.take 32 = name at h
    have hamp : '&' ∉ name := by
      intro hm
      have hno : '&' ∉ (spanWhile isNameChar cs).1 := not_mem_spanWhile rfl (by decide)
      exact hno (List.mem_of_mem_take (hname ▸ hm))
    have hcs : cs = name ++ cs.drop name.length := by
      have hfront : name <+: cs := by
        rw [← hname]
        refine (List.take_prefix 32 _).trans ⟨(spanWhile isNameChar cs).2, ?_⟩
        exact spanWhile_append isNameChar cs
      rw [List.prefix_iff_eq_append] at hfront
      exact hfront.symm
    split at h
    · cases h
    · next hne =>
      have hne : name ≠ [] := by simpa using hne
      split at h
      · next left hleft =>
        cases h
        rw [hleft] at hcs
        refine ⟨name ++ [';'], by rw [hcs, List.append_assoc]; rfl, ?_, fun v hv => ?_⟩
        · rw [List.mem_append, not_or]
          exact ⟨hamp, by decide⟩
        · rw [← Except.ok.inj hv]
          exact nameValue_literal_or name true hne
      · cases h
        refine ⟨name, hcs, hamp, fun v hv => ?_⟩
        rw [← Except.ok.inj hv]
        have hvalue := nameValue_literal_or name false hne
        rwa [if_neg Bool.false_ne_true, List.append_nil] at hvalue
  · cases h

end Entity

/-! ### Texts as they are written -/

namespace Escape

/-- What a reader makes of texts that are written one after the other. -/
def readBack : List Text → Except NumberError Text
  | [] => .ok []
  | cs :: texts => (Entity.decode (text cs)).bind fun v => (readBack texts).map (v ++ ·)

/-- Whether each ampersand begins a closed reference within its own text, or stands for itself in
front of all that follows it. -/
def IsKept (texts : List Text) : Prop :=
  ∀ cs others, cs :: others <:+ texts → ∀ rest, '&' :: rest <:+ cs →
    closesReference rest = true ∨ StandsForItself (rest ++ others.flatten)

theorem isKept_nil : IsKept [] := by
  intro cs others hs
  cases List.suffix_nil.mp hs

theorem isKept_nil_cons (texts : List Text) : IsKept ([] :: texts) ↔ IsKept texts := by
  constructor
  · intro h cs others hs
    exact h cs others (hs.trans (List.suffix_cons _ _))
  · intro h cs others hs rest hr
    rcases List.suffix_cons_iff.mp hs with heq | hs
    · cases heq
      cases List.suffix_nil.mp hr
    · exact h cs others hs rest hr

theorem isKept_cons (c : Char) (cs : Text) (texts : List Text) :
    IsKept ((c :: cs) :: texts) ↔
      (c = '&' → closesReference cs = true ∨ StandsForItself (cs ++ texts.flatten)) ∧
        IsKept (cs :: texts) := by
  constructor
  · intro h
    refine ⟨fun hc => h _ _ (List.suffix_refl _) cs (hc ▸ List.suffix_refl _), ?_⟩
    intro ds others hs rest hr
    rcases List.suffix_cons_iff.mp hs with heq | hs
    · cases heq
      exact h _ _ (List.suffix_refl _) rest (hr.trans (List.suffix_cons c cs))
    · exact h ds others (hs.trans (List.suffix_cons _ _)) rest hr
  · rintro ⟨hown, h⟩ ds others hs rest hr
    rcases List.suffix_cons_iff.mp hs with heq | hs
    · cases heq
      rcases List.suffix_cons_iff.mp hr with heq | hr
      · cases heq
        exact hown rfl
      · exact h _ _ (List.suffix_refl _) rest hr
    · exact h ds others (hs.trans (List.suffix_cons _ _)) rest hr

theorem isKept_append {front : Text} (cs : Text) (texts : List Text) (hf : '&' ∉ front) :
    IsKept ((front ++ cs) :: texts) ↔ IsKept (cs :: texts) := by
  induction front with
  | nil => exact Iff.rfl
  | cons c front ih =>
    rw [List.mem_cons, not_or] at hf
    rw [List.cons_append, isKept_cons, ih hf.2]
    exact and_iff_right fun hc => absurd hc.symm hf.1

/-! ### One character after the other -/

theorem readBack_nil_cons (texts : List Text) : readBack ([] :: texts) = readBack texts := by
  show (readBack texts).map ([] ++ ·) = readBack texts
  cases readBack texts with
  | error e => rfl
  | ok v => rfl

theorem bind_map_cons {x y : Except NumberError Text} (c : Char) :
    (x.map (c :: ·)).bind (fun v => y.map (v ++ ·)) =
      (x.bind fun v => y.map (v ++ ·)).map (c :: ·) := by
  cases x with
  | error e => rfl
  | ok v =>
    cases y with
    | error e => rfl
    | ok w => rfl

/-- A character is read back unless it is the ampersand of a closed reference. -/
theorem readBack_cons {c : Char} {cs : Text} (texts : List Text)
    (h : c = '&' → closesReference cs = false) :
    readBack ((c :: cs) :: texts) = (readBack (cs :: texts)).map (c :: ·) := by
  have himage : Entity.decode (image c cs ++ text cs) =
      (Entity.decode (text cs)).map (c :: ·) := by
    by_cases ha : c = '&'
    · subst ha
      rw [image, if_pos rfl, h rfl]
      exact Entity.decode_amp _
    by_cases hl : c = '<'
    · subst hl
      exact Entity.decode_lt _
    by_cases hg : c = '>'
    · subst hg
      exact Entity.decode_gt _
    rw [image_of_ne cs ha hl hg]
    exact Entity.decode_keep c _ ha
  rw [readBack, text_cons, himage, bind_map_cons]
  rfl

/-- A closed reference is read back as it is read anywhere. -/
theorem readBack_reference {body : Text} (hbody : Entity.IsBody body) (rest : Text)
    (texts : List Text) (hcloses : closesReference (body ++ ';' :: rest) = true)
    {value : Except NumberError Text}
    (hvalue : ∀ rest, Entity.decode ('&' :: (body ++ ';' :: rest)) =
      value.bind fun v => (Entity.decode rest).map (v ++ ·)) :
    readBack (('&' :: (body ++ ';' :: rest)) :: texts) =
      value.bind fun v => (readBack (rest :: texts)).map (v ++ ·) := by
  have hclosed (d : Char) (hh : d ≠ '#') (ha : Escape.isNameLetter d = false) (hx : isHexDigit d = false)
      (hs : d ≠ ';') : d ∉ body ++ [';'] := Entity.not_mem_closed hbody hh ha hx hs
  have hwritten : text ('&' :: (body ++ ';' :: rest)) = '&' :: (body ++ ';' :: text rest) := by
    have happend : body ++ ';' :: rest = (body ++ [';']) ++ rest := by
      rw [List.append_assoc, List.singleton_append]
    rw [text_cons, image, if_pos rfl, hcloses, if_pos rfl, happend, text_append _ rest
      (hclosed '&' (by decide) (by decide) (by decide) (by decide))
      (hclosed '<' (by decide) (by decide) (by decide) (by decide))
      (hclosed '>' (by decide) (by decide) (by decide) (by decide)), List.append_assoc]
    rfl
  rw [readBack, hwritten, hvalue, readBack]
  cases value with
  | error e => rfl
  | ok v =>
    cases Entity.decode (text rest) with
    | error e => rfl
    | ok w =>
      cases readBack texts with
      | error e => rfl
      | ok x => exact congrArg Except.ok (List.append_assoc v w x)

/-- Texts without a character. -/
theorem readBack_of_flatten_nil {texts : List Text} (h : texts.flatten = []) :
    readBack texts = .ok [] ∧ IsKept texts := by
  induction texts with
  | nil => exact ⟨rfl, isKept_nil⟩
  | cons cs texts ih =>
    rw [List.flatten_cons, List.append_eq_nil_iff] at h
    obtain ⟨rfl, h⟩ := h
    rw [readBack_nil_cons, isKept_nil_cons]
    exact ih h

/-- The first character of some texts. -/
theorem exists_head {texts : List Text} {c : Char} {rest : Text} (h : texts.flatten = c :: rest) :
    ∃ cs others, cs ++ others.flatten = rest ∧ readBack texts = readBack ((c :: cs) :: others) ∧
      (IsKept texts ↔ IsKept ((c :: cs) :: others)) := by
  induction texts with
  | nil => cases h
  | cons ds texts ih =>
    cases ds with
    | nil =>
      obtain ⟨cs, others, hrest, hread, hkept⟩ := ih h
      exact ⟨cs, others, hrest, (readBack_nil_cons texts).trans hread,
        (isKept_nil_cons texts).trans hkept⟩
    | cons d ds =>
      rw [List.flatten_cons, List.cons_append, List.cons.injEq] at h
      obtain ⟨rfl, h⟩ := h
      exact ⟨ds, texts, h, rfl, Iff.rfl⟩

/-- A front part without ampersands is read back, over the ends of texts. -/
theorem readBack_skip {used left : Text} {texts : List Text} (h : texts.flatten = used ++ left)
    (hu : '&' ∉ used) :
    ∃ others, others.flatten = left ∧ readBack texts = (readBack others).map (used ++ ·) ∧
      (IsKept others → IsKept texts) := by
  induction used generalizing texts with
  | nil =>
    refine ⟨texts, h, ?_, id⟩
    cases readBack texts with
    | error e => rfl
    | ok v => rfl
  | cons c used ih =>
    rw [List.mem_cons, not_or] at hu
    obtain ⟨cs, behind, hrest, hread, hkept⟩ := exists_head h
    obtain ⟨others, hleft, hread', hkept'⟩ := @ih (cs :: behind) hrest hu.2
    refine ⟨others, hleft, ?_, fun hk => ?_⟩
    · rw [hread, readBack_cons behind fun hc => absurd hc.symm hu.1, hread']
      cases readBack others with
      | error e => rfl
      | ok v => rfl
    · exact hkept.mpr ((isKept_cons c cs behind).mpr ⟨fun hc => absurd hc.symm hu.1, hkept' hk⟩)

/-- All texts decoded at once are what is read back when all ampersands are kept. -/
theorem decode_flatten {texts : List Text} (h : IsKept texts) :
    Entity.decode texts.flatten = readBack texts := by
  induction hn : texts.flatten.length using Nat.strongRecOn generalizing texts with
  | ind n ih =>
    cases hflat : texts.flatten with
    | nil => exact (readBack_of_flatten_nil hflat).1.symm
    | cons c rest =>
      obtain ⟨cs, others, rfl, hread, hkept⟩ := exists_head hflat
      rw [hflat, List.length_cons] at hn
      obtain ⟨hown, hothers⟩ := (isKept_cons c cs others).mp (hkept.mp h)
      have hrest := ih (cs ++ others.flatten).length (hn ▸ Nat.lt_succ_self _) hothers rfl
      rw [List.flatten_cons] at hrest
      rw [hread]
      by_cases hc : c = '&'
      · subst hc
        cases hcloses : closesReference cs with
        | true =>
          obtain ⟨body, more, hbody, rfl⟩ := Token.exists_body hcloses
          obtain ⟨value, hvalue⟩ := Entity.decode_closed body hbody
          have hmore : IsKept (more :: others) := by
            have hfront := Entity.not_mem_closed (c := '&') hbody (by decide) (by decide)
              (by decide) (by decide)
            rw [← isKept_append more others hfront, List.append_assoc]
            exact hothers
          have hlater := ih (more ++ others.flatten).length (by
            rw [← hn]
            simp only [List.length_append, List.length_cons]
            omega) hmore rfl
          rw [readBack_reference hbody more others hcloses hvalue, ← hlater, List.append_assoc,
            List.cons_append, hvalue, List.flatten_cons]
        | false =>
          rw [readBack_cons others fun _ => hcloses, ← hrest]
          rcases hown rfl with hclosed | hself
          · rw [hcloses] at hclosed
            cases hclosed
          · exact hself
      · rw [readBack_cons others fun he => absurd he hc, ← hrest]
        exact Entity.decode_keep c _ hc

/-- Whether texts that are decoded at once have no more characters than when they are read back, and
as many only when all ampersands are kept. -/
def Shrinks (texts : List Text) : Prop :=
  ∀ v w, readBack texts = .ok v → Entity.decode texts.flatten = .ok w →
    w.length ≤ v.length ∧ (w.length = v.length → IsKept texts)

/-- A closed reference in front. -/
theorem shrinks_reference {cs : Text} {others : List Text}
    (hcloses : closesReference cs = true)
    (h : ∀ more : Text, more.length < cs.length → Shrinks (more :: others)) :
    Shrinks (('&' :: cs) :: others) := by
  intro v w hv hw
  obtain ⟨body, more, hbody, rfl⟩ := Token.exists_body hcloses
  obtain ⟨value, hvalue⟩ := Entity.decode_closed body hbody
  rw [readBack_reference hbody more others hcloses hvalue] at hv
  rw [List.flatten_cons, List.cons_append, List.append_assoc, List.cons_append, hvalue] at hw
  cases value with
  | error e => cases hv
  | ok x =>
    obtain ⟨v', hv', rfl⟩ := Text.map_ok hv
    obtain ⟨w', hw', rfl⟩ := Text.map_ok hw
    obtain ⟨hle, hkept⟩ := h more (by
      rw [List.length_append, List.length_cons]
      omega) v' w' hv' hw'
    rw [List.length_append, List.length_append]
    refine ⟨by omega, fun heq => ?_⟩
    have hfront := Entity.not_mem_closed (c := '&') hbody (by decide) (by decide) (by decide)
      (by decide)
    have hmore := (isKept_append more others hfront).mpr (hkept (by omega))
    rw [List.append_assoc] at hmore
    exact (isKept_cons _ _ _).mpr ⟨fun _ => Or.inl hcloses, hmore⟩

/-- A character in front that no reference begins with. -/
theorem shrinks_keep {c : Char} {cs : Text} {others : List Text}
    (hcloses : c = '&' → closesReference cs = false)
    (hread : Entity.readReference? (c :: (cs ++ others.flatten)) = none)
    (h : Shrinks (cs :: others)) : Shrinks ((c :: cs) :: others) := by
  intro v w hv hw
  have hkeep : Entity.decode (c :: (cs ++ others.flatten)) = _ := replaceAll?_keep _ _ hread
  rw [readBack_cons others hcloses] at hv
  rw [List.flatten_cons, List.cons_append, hkeep] at hw
  obtain ⟨v', hv', rfl⟩ := Text.map_ok hv
  obtain ⟨w', hw', rfl⟩ := Text.map_ok hw
  obtain ⟨hle, hkept⟩ := h v' w' hv' hw'
  rw [List.length_cons, List.length_cons]
  refine ⟨Nat.succ_le_succ hle, fun heq => (isKept_cons _ _ _).mpr ⟨fun hc => ?_, ?_⟩⟩
  · subst hc
    exact Or.inr hkeep
  · exact hkept (Nat.succ.inj heq)

/-- A reference that is not closed in its own text. -/
theorem shrinks_read {cs left : Text} {others : List Text} {value : Except NumberError Text}
    (hcloses : closesReference cs = false)
    (hread : Entity.readReference? ('&' :: (cs ++ others.flatten)) = some (value, left))
    (h : ∀ texts : List Text, texts.flatten = left → Shrinks texts) :
    Shrinks (('&' :: cs) :: others) := by
  intro v w hv hw
  obtain ⟨used, hused, hamp, hliteral⟩ := Entity.readReference?_literal_or hread
  obtain ⟨behind, rfl, hskip, hkept⟩ := @readBack_skip _ _ (cs :: others) hused hamp
  have hdecode := Entity.decode_read hread
  rw [readBack_cons others fun _ => hcloses, hskip] at hv
  rw [List.flatten_cons, List.cons_append, hdecode] at hw
  obtain ⟨v', hv', rfl⟩ := Text.map_ok hv
  obtain ⟨v'', hv'', rfl⟩ := Text.map_ok hv'
  cases value with
  | error e => cases hw
  | ok x =>
    obtain ⟨w', hw', rfl⟩ := Text.map_ok hw
    obtain ⟨hle, hbehind⟩ := h behind rfl v'' w' hv'' hw'
    rw [List.length_append, List.length_cons, List.length_append]
    rcases hliteral x rfl with rfl | hshort
    · rw [List.length_cons]
      refine ⟨by omega, fun heq => (isKept_cons _ _ _).mpr ⟨fun _ => Or.inr ?_, ?_⟩⟩
      · rw [StandsForItself, hdecode, hused, Entity.decode_append used _ hamp]
        cases Entity.decode behind.flatten with
        | error e => rfl
        | ok y => rfl
      · exact hkept (hbehind (by omega))
    · exact ⟨by omega, fun heq => by omega⟩

theorem shrinks (texts : List Text) : Shrinks texts := by
  induction hn : texts.flatten.length using Nat.strongRecOn generalizing texts with
  | ind n ih =>
    cases hflat : texts.flatten with
    | nil =>
      intro v w hv hw
      rw [hflat] at hw
      cases hw
      exact ⟨Nat.zero_le _, fun _ => (readBack_of_flatten_nil hflat).2⟩
    | cons c rest =>
      obtain ⟨cs, others, rfl, hread, hkept⟩ := exists_head hflat
      rw [hflat, List.length_cons, List.length_append] at hn
      have hshort (more : Text) (hlt : more.length < cs.length + 1) : Shrinks (more :: others) := by
        refine ih (more :: others).flatten.length ?_ _ rfl
        rw [List.flatten_cons, List.length_append]
        omega
      suffices h : Shrinks ((c :: cs) :: others) by
        intro v w hv hw
        rw [hread] at hv
        rw [hflat] at hw
        rw [hkept]
        exact h v w hv hw
      by_cases hcloses : c = '&' ∧ closesReference cs = true
      · obtain ⟨rfl, hcloses⟩ := hcloses
        exact shrinks_reference hcloses fun more hlt => hshort more (Nat.lt_succ_of_lt hlt)
      · have hopen (hc : c = '&') : closesReference cs = false :=
          Bool.not_eq_true _ ▸ fun hcl => hcloses ⟨hc, hcl⟩
        cases hr : Entity.readReference? (c :: (cs ++ others.flatten)) with
        | none => exact shrinks_keep hopen hr (hshort cs (Nat.lt_succ_self _))
        | some r =>
          obtain ⟨value, left⟩ := r
          by_cases hc : c = '&'
          · subst hc
            refine shrinks_read (hopen rfl) hr fun texts hleft => ih _ ?_ texts rfl
            obtain ⟨_, more, heq, hsuffix⟩ := Entity.readReference?_suffix hr
            have hlen := hsuffix.length_le
            rw [← (List.cons.inj heq).2, List.length_append] at hlen
            rw [hleft]
            omega
          · rw [Entity.readReference?_of_ne c _ hc] at hr
            cases hr

end Escape

namespace Anchor

/-- A text without marks is only decoded. -/
theorem visible_of_not_mem (stash : Stash) {cs : Text} (h : Mark.opening ∉ cs) :
    visible stash cs = Entity.decode cs := by
  have hraw : resolveRaw stash (cs ++ []) = _ :=
    Token.resolveRaw_append cs [] (Mark.onlyAmpersands_of_not_mem h)
  rw [List.append_nil] at hraw
  rw [visible, hraw]
  show (Mark.unescape (cs ++ [])).bind Entity.decode = _
  rw [List.append_nil, Mark.unescape_of_not_mem h]
  rfl

/-- The anchor of a heading without marks is made from what a reader of the page sees of it exactly
when each ampersand begins a closed reference within its own text, or stands for itself in front of
all that follows it in the heading. -/
theorem textOf_eq_readBack_iff (stash : Stash) (heading : Tree)
    (h : Mark.opening ∉ heading.innerText) :
    (Escape.IsKept heading.innerTexts →
      textOf stash heading = Escape.readBack heading.innerTexts) ∧
    ∀ v, Escape.readBack heading.innerTexts = .ok v → textOf stash heading = .ok v →
      Escape.IsKept heading.innerTexts := by
  have htext : textOf stash heading = Entity.decode heading.innerTexts.flatten := by
    rw [textOf, visible_of_not_mem stash h, Element.flatten_innerTexts]
  rw [htext]
  exact ⟨Escape.decode_flatten, fun v hv hw => (Escape.shrinks _ v v hv hw).2 rfl⟩

/-- A heading with an ampersand between blanks, and a closed reference in an element. -/
def plainHeading : Tree :=
  ⟨"h2", [], some "R & D".toList, none, [⟨"em", [], some "&lt;".toList, some "!".toList, []⟩]⟩

theorem isKept_plainHeading : Escape.IsKept plainHeading.innerTexts := by
  have hblank : StandsForItself " D&lt;!".toList := replaceAll?_keep _ _ (by rfl)
  show Escape.IsKept ["R & D".toList, "&lt;".toList, "!".toList]
  rw [show "R & D".toList = "R ".toList ++ '&' :: (" D".toList ++ []) by rfl,
    Escape.isKept_append _ _ (by decide), Escape.isKept_cons, Escape.isKept_append _ _ (by decide),
    Escape.isKept_nil_cons, show "&lt;".toList = '&' :: ("lt;".toList ++ []) by rfl,
    Escape.isKept_cons, Escape.isKept_append _ _ (by decide), Escape.isKept_nil_cons,
    show "!".toList = "!".toList ++ [] by rfl, Escape.isKept_append _ _ (by decide),
    Escape.isKept_nil_cons]
  exact ⟨fun _ => Or.inr hblank, fun _ => Or.inl (by decide), Escape.isKept_nil⟩

theorem textOf_plainHeading :
    Mark.opening ∉ plainHeading.innerText ∧ Escape.IsKept plainHeading.innerTexts ∧
      Escape.readBack plainHeading.innerTexts = .ok "R & D<!".toList ∧
      textOf (Stash.ofList []) plainHeading = .ok "R & D<!".toList := by
  have hquiet : Mark.opening ∉ plainHeading.innerText := by decide
  have hread : Escape.readBack plainHeading.innerTexts = .ok "R & D<!".toList := by
    rfl
  obtain ⟨hkept, hback⟩ := textOf_eq_readBack_iff (Stash.ofList []) plainHeading hquiet
  have htext := (hkept isKept_plainHeading).trans hread
  exact ⟨hquiet, hback _ hread htext, hread, htext⟩

/-- An ampersand in front of the letters of an older name is decoded, although a reader of the page
sees it. -/
theorem textOf_copyHeading_differs :
    textOf (Stash.ofList []) ⟨"h2", [], some "&copy B".toList, none, []⟩ = .ok "© B".toList ∧
      Escape.readBack (Element.innerTexts ⟨"h2", [], some "&copy B".toList, none, []⟩) =
        .ok "&copy B".toList := by
  exact ⟨by rfl, by rfl⟩

end Anchor

end Changelog
