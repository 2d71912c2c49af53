import Changelog.Proofs.Marks.Changes

/-!
# Texts of headings in segments

A heading text may be cut into plain text, marks of escaped characters and marks of stored markup
whose references are closed.  Three replacements run over the whole text one after the other; each
of them finds in a segment what it would find if nothing stood beside it, so that `textOf_segments`
puts the text together from the values of the segments.
-/

namespace Changelog

open Text

namespace Entity

/-- Whether every ampersand of a text begins a closed reference. -/
def IsClosed (cs : Text) : Prop :=
  ∀ before after, cs = before ++ '&' :: after →
    ∃ body rest, IsBody body ∧ after = body ++ ';' :: rest

theorem IsClosed.suffix {front cs : Text} (h : IsClosed (front ++ cs)) : IsClosed cs := by
  intro before after hcs
  exact h (front ++ before) after (by rw [hcs, List.append_assoc])

theorem isClosed_reference {body : Text} (h : IsBody body) :
    IsClosed ('&' :: (body ++ [';'])) := by
  intro before after hcs
  cases before with
  | nil => exact ⟨body, [], h, (List.cons.inj hcs).2.symm⟩
  | cons c before =>
    have hamp : '&' ∉ body ++ [';'] :=
      not_mem_closed h (by decide) (by decide) (by decide) (by decide)
    refine absurd ?_ hamp
    rw [(List.cons.inj hcs).2]
    exact List.mem_append_right before List.mem_cons_self

/-- A text whose references are closed is decoded alike whatever follows it. -/
theorem decode_isClosed (cs rest : Text) (h : IsClosed cs) :
    decode (cs ++ rest) = (decode cs).bind fun v => (decode rest).map (v ++ ·) := by
  induction hn : cs.length using Nat.strongRecOn generalizing cs with
  | ind n ih =>
    cases cs with
    | nil =>
      show decode rest = (decode rest).map ([] ++ ·)
      cases decode rest with
      | error e => rfl
      | ok v => rfl
    | cons c cs =>
      have hshort (left : Text) (hl : ∃ used, c :: cs = used ++ left) (hlt : left.length < n) :
          decode (left ++ rest) = (decode left).bind fun v => (decode rest).map (v ++ ·) := by
        obtain ⟨used, hused⟩ := hl
        exact ih left.length hlt left (IsClosed.suffix (hused ▸ h)) rfl
      by_cases hc : c = '&'
      · subst hc
        obtain ⟨body, left, hbody, rfl⟩ := h [] cs rfl
        obtain ⟨value, hvalue⟩ := decode_closed body hbody
        have hleft := hshort left ⟨'&' :: (body ++ [';']), by
          rw [List.cons_append, List.append_assoc, List.singleton_append]⟩ (by
          rw [← hn, List.length_cons, List.length_append, List.length_cons]
          omega)
        rw [List.cons_append, List.append_assoc, List.cons_append, hvalue, hvalue, hleft]
        cases value with
        | error e => rfl
        | ok v =>
          cases decode left with
          | error e => rfl
          | ok w =>
            cases decode rest with
            | error e => rfl
            | ok x => exact congrArg Except.ok (List.append_assoc v w x).symm
      · have hcs := hshort cs ⟨[c], rfl⟩ (hn ▸ Nat.lt_succ_self _)
        rw [List.cons_append, decode_keep c _ hc, decode_keep c _ hc, hcs]
        cases decode cs with
        | error e => rfl
        | ok w =>
          cases decode rest with
          | error e => rfl
          | ok x => rfl

end Entity

namespace Mark

/-- The digits of a class that can be read as a number. -/
def Spells (isDigit : Char → Bool) (digits : Text) (n : Nat) : Prop :=
  digits ≠ [] ∧ (∀ d ∈ digits, isDigit d = true) ∧ readDecimal digits = .ok n

/-- A number is spelled by its decimal digits, up to a length that no index comes near. -/
theorem spells_decimal {isDigit : Char → Bool}
    (hd : ∀ c, isAsciiDigit c = true → isDigit c = true) {n : Nat}
    (h : (decimal n).length ≤ digitLimit) : Spells isDigit (decimal n) n := by
  refine ⟨Nat.toDigits_ne_nil, fun d hm => hd d (isAsciiDigit_of_mem_decimal hm), ?_⟩
  rw [readDecimal, if_pos h, digitsValue_decimal]

theorem not_mem_of_digits {isDigit : Char → Bool} {digits : Text} {c : Char}
    (hd : ∀ d ∈ digits, isDigit d = true) (hc : isDigit c = false) : c ∉ digits := by
  intro hm
  rw [hd c hm] at hc
  cases hc

end Mark

namespace Anchor

theorem not_mem_dropTags {c : Char} (cs : Text) (h : c ∉ cs) : c ∉ dropTags cs := by
  have hcut {ds value rest : Text}
      (hr : (readTag? ds).map (fun r => (([] : Text), r.2)) = some (value, rest)) :
      value = [] ∧ ∃ inside, ds = '<' :: (inside ++ '>' :: rest) := by
    obtain ⟨r, hread, heq⟩ := Option.map_eq_some_iff.mp hr
    cases heq
    exact ⟨rfl, r.1, Mark.readTag?_eq hread⟩
  have hreads : Reads fun t => (readTag? t).map fun r => (([] : Text), r.2) := by
    intro ds value rest hr
    obtain ⟨-, inside, rfl⟩ := hcut hr
    simp only [List.length_cons, List.length_append]
    omega
  induction hn : cs.length using Nat.strongRecOn generalizing cs with
  | ind n ih =>
    cases cs with
    | nil => exact List.not_mem_nil
    | cons d ds =>
      cases hr : (readTag? (d :: ds)).map (fun r => (([] : Text), r.2)) with
      | none =>
        rw [List.mem_cons, not_or] at h
        rw [dropTags, replaceAll_keep d ds hr, List.mem_cons, not_or]
        exact ⟨h.1, ih ds.length (hn ▸ Nat.lt_succ_self _) ds h.2 rfl⟩
      | some r =>
        obtain ⟨value, rest⟩ := r
        have hlt := hreads _ _ _ hr
        obtain ⟨rfl, inside, hds⟩ := hcut hr
        have hrest : c ∉ rest := by
          intro hm
          rw [hds] at h
          exact h (List.mem_cons_of_mem _ (List.mem_append_right _ (List.mem_cons_of_mem _ hm)))
        rw [dropTags, replaceAll_read hreads hr]
        exact ih rest.length (hn ▸ hlt) rest hrest rfl

/-- What a mark of stored markup shows when something is stored under its number. -/
theorem rawText_stored {stash : Stash} {digits markup : Text} {index : Nat}
    (hread : readDecimal digits = .ok index) (h : stash.entries[index]? = some markup) :
    rawText stash digits = .ok (dropTags markup) := by
  simp only [rawText, hread, Except.map, h]

/-- A part of a heading text. -/
inductive Segment
  /-- Text that stands for itself. -/
  | plain (cs : Text)
  /-- The mark of an escaped character, with the digits that spell its number. -/
  | escaped (digits : Text) (c : Char)
  /-- The mark of stored markup, with the digits that spell its index. -/
  | stored (digits : Text) (index : Nat)

namespace Segment

/-- How a segment is written in the heading. -/
def write : Segment → Text
  | plain cs => cs
  | escaped digits _ => Mark.opening :: (digits ++ [Mark.closing])
  | stored digits _ => Mark.opening :: (Mark.rawWord ++ digits ++ [Mark.closing])

/-- Whether plain text holds no ampersands and no marks, and marks name a character that is no
ampersand, or markup that is stored, holds no marks and has closed references between its tags. -/
def WellFormed (stash : Stash) : Segment → Prop
  | plain cs => '&' ∉ cs ∧ Mark.opening ∉ cs ∧ Mark.closing ∉ cs
  | escaped digits c => Mark.Spells isDigit digits c.toNat ∧ c ≠ '&'
  | stored digits index =>
    Mark.Spells isAsciiDigit digits index ∧ ∃ markup, stash.entries[index]? = some markup ∧
      Mark.opening ∉ markup ∧ Mark.closing ∉ markup ∧ Entity.IsClosed (dropTags markup)

/-- What a segment shows by itself. -/
def value (stash : Stash) : Segment → Except NumberError Text
  | plain cs => .ok cs
  | escaped _ c => .ok [c]
  | stored _ index => Entity.decode (stash.remains index)

/-- What segments show one after the other; the first that has no value fails the whole. -/
def valueAll (stash : Stash) : List Segment → Except NumberError Text
  | [] => .ok []
  | s :: segments => (s.value stash).bind fun v => (valueAll stash segments).map (v ++ ·)

/-- A segment once the marks of stored markup are resolved. -/
def resolved (stash : Stash) : Segment → Text
  | stored _ index => stash.remains index
  | segment => segment.write

/-- A segment once all marks are resolved. -/
def bare (stash : Stash) : Segment → Text
  | plain cs => cs
  | escaped _ c => [c]
  | stored _ index => stash.remains index

variable {stash : Stash}

theorem remains_stored {digits : Text} {index : Nat} (h : (stored digits index).WellFormed stash) :
    Anchor.rawText stash digits = .ok (stash.remains index) ∧
      Mark.opening ∉ stash.remains index ∧ Entity.IsClosed (stash.remains index) := by
  obtain ⟨⟨-, -, hread⟩, markup, hmarkup, hopen, -, hclosed⟩ := h
  have hremains : stash.remains index = dropTags markup := by
    rw [Stash.remains, Stash.markup, hmarkup]
    rfl
  rw [hremains]
  exact ⟨rawText_stored hread hmarkup, not_mem_dropTags markup hopen, hclosed⟩

/-- The mark of an escaped character is no mark of stored markup. -/
theorem resolveRaw_escaped {digits : Text} {c : Char} (h : (escaped digits c).WellFormed stash)
    (rest : Text) :
    resolveRaw stash ((escaped digits c).write ++ rest) =
      (resolveRaw stash rest).map ((escaped digits c).write ++ ·) := by
  obtain ⟨⟨hne, hd, -⟩, -⟩ := h
  have hinner : Mark.opening ∉ digits ++ [Mark.closing] := by
    rw [List.mem_append, not_or]
    exact ⟨Mark.not_mem_of_digits hd (by decide), by decide⟩
  have htail : resolveRaw stash (digits ++ [Mark.closing] ++ rest) = _ :=
    Token.resolveRaw_append _ rest (Mark.onlyAmpersands_of_not_mem hinner)
  have hread : Mark.readRaw? (Mark.opening :: (digits ++ [Mark.closing] ++ rest)) = none := by
    obtain ⟨d, ds, rfl⟩ := List.exists_cons_of_ne_nil hne
    have hw : 'w' ≠ d := by
      intro he
      have hdigit := hd d List.mem_cons_self
      rw [← he] at hdigit
      revert hdigit
      decide
    rw [Mark.readRaw?, Mark.readWord?, if_pos rfl]
    show ((if 'w' = d then _ else none : Option Text).bind _) = none
    rw [if_neg hw]
    rfl
  show resolveRaw stash (Mark.opening :: (digits ++ [Mark.closing] ++ rest)) = _
  unfold resolveRaw at htail ⊢
  rw [replaceAll?_keep _ _ (by rw [hread]; rfl), htail]
  cases replaceAll? _ rest with
  | error e => rfl
  | ok v => rfl

theorem resolveRaw_stored {digits : Text} {index : Nat}
    (h : (stored digits index).WellFormed stash) (rest : Text) :
    resolveRaw stash ((stored digits index).write ++ rest) =
      (resolveRaw stash rest).map (stash.remains index ++ ·) := by
  obtain ⟨hvalue, -, -⟩ := remains_stored h
  obtain ⟨⟨hne, hd, -⟩, -⟩ := h
  have hafter : after? Mark.rawWord (Mark.rawWord ++ (digits ++ Mark.closing :: rest)) =
      some (digits ++ Mark.closing :: rest) := (after?_eq_some_iff _ _ _).mpr rfl
  have hwrite : (stored digits index).write ++ rest =
      Mark.opening :: (Mark.rawWord ++ (digits ++ Mark.closing :: rest)) := by
    simp only [write, List.cons_append, List.append_assoc, List.nil_append]
  have hread : (Mark.readRaw? ((stored digits index).write ++ rest)).map
      (fun r => (rawText stash r.1, r.2)) = some (.ok (stash.remains index), rest) := by
    rw [hwrite, Mark.readRaw?, Mark.readWord?, if_pos rfl, hafter, Option.bind_some,
      Mark.readDigits?_closing hne hd (by decide), Option.map_some, hvalue]
  unfold resolveRaw
  rw [replaceAll?_read Token.reads_raw hread]
  rfl

/-- The marks of stored markup are resolved segment by segment. -/
theorem resolveRaw_segments (segments : List Segment) (h : ∀ s ∈ segments, s.WellFormed stash) :
    resolveRaw stash (segments.flatMap write) = .ok (segments.flatMap (resolved stash)) := by
  induction segments with
  | nil => rfl
  | cons s segments ih =>
    obtain ⟨hs, hothers⟩ := List.forall_mem_cons.mp h
    rw [List.flatMap_cons, List.flatMap_cons]
    cases s with
    | plain cs =>
      have hcs : Mark.opening ∉ cs := hs.2.1
      rw [write, Token.resolveRaw_append cs _ (Mark.onlyAmpersands_of_not_mem hcs), ih hothers]
      rfl
    | escaped digits c =>
      rw [resolveRaw_escaped hs, ih hothers]
      rfl
    | stored digits index =>
      rw [resolveRaw_stored hs, ih hothers]
      rfl

theorem unescape_escaped {digits : Text} {c : Char} (h : (escaped digits c).WellFormed stash)
    (rest : Text) :
    Mark.unescape ((escaped digits c).write ++ rest) =
      (Mark.unescape rest).map ([c] ++ ·) := by
  obtain ⟨⟨hne, hd, hspells⟩, -⟩ := h
  have hchar : Mark.escapedChar digits = .ok c := by
    have hdecimal := Mark.escapedChar_decimal c
    rw [Mark.escapedChar, Mark.readDecimal_decimal] at hdecimal
    rw [Mark.escapedChar, hspells]
    exact hdecimal
  have hread : (Mark.readEscaped? ((escaped digits c).write ++ rest)).map
      (fun r => ((Mark.escapedChar r.1).map ([·]), r.2)) = some (.ok [c], rest) := by
    have hdigits := Mark.readDigits?_closing hne hd (by decide) rest
    rw [write, List.cons_append, List.append_assoc, List.singleton_append, Mark.readEscaped?,
      if_pos rfl, hdigits, Option.map_some, hchar]
    rfl
  unfold Mark.unescape
  rw [replaceAll?_read Mark.reads_escaped hread]
  rfl

/-- The marks of escaped characters are resolved segment by segment. -/
theorem unescape_segments (segments : List Segment) (h : ∀ s ∈ segments, s.WellFormed stash) :
    Mark.unescape (segments.flatMap (resolved stash)) = .ok (segments.flatMap (bare stash)) := by
  induction segments with
  | nil => rfl
  | cons s segments ih =>
    obtain ⟨hs, hothers⟩ := List.forall_mem_cons.mp h
    rw [List.flatMap_cons, List.flatMap_cons]
    cases s with
    | plain cs =>
      have hcs : Mark.opening ∉ cs := hs.2.1
      rw [resolved, write, Mark.unescape_append cs _ (Mark.onlyAmpersands_of_not_mem hcs),
        ih hothers]
      · rfl
      · exact fun _ _ he => nomatch he
    | escaped digits c =>
      rw [resolved, unescape_escaped hs, ih hothers]
      · rfl
      · exact fun _ _ he => nomatch he
    | stored digits index =>
      have hopen := (remains_stored hs).2.1
      rw [resolved, Mark.unescape_append _ _ (Mark.onlyAmpersands_of_not_mem hopen), ih hothers]
      rfl

/-- References are decoded segment by segment. -/
theorem decode_segments (segments : List Segment) (h : ∀ s ∈ segments, s.WellFormed stash) :
    Entity.decode (segments.flatMap (bare stash)) = valueAll stash segments := by
  induction segments with
  | nil => rfl
  | cons s segments ih =>
    obtain ⟨hs, hothers⟩ := List.forall_mem_cons.mp h
    rw [List.flatMap_cons, valueAll, ← ih hothers]
    cases s with
    | plain cs => exact Entity.decode_append cs _ hs.1
    | escaped digits c =>
      refine Entity.decode_append [c] _ fun hm => hs.2 ?_
      exact (List.mem_singleton.mp hm).symm
    | stored digits index => exact Entity.decode_isClosed _ _ (remains_stored hs).2.2

end Segment

/-- What the anchor of a heading is made from is what the segments of its text show, one after the
other, however the segments lie over the texts and tails in the heading: no reference is decoded
twice, and none is read over the end of a segment. -/
theorem textOf_segments (stash : Stash) (heading : Tree) (segments : List Segment)
    (hwell : ∀ s ∈ segments, s.WellFormed stash)
    (htext : heading.innerText = segments.flatMap Segment.write) :
    textOf stash heading = Segment.valueAll stash segments := by
  rw [textOf, visible, htext, Segment.resolveRaw_segments segments hwell]
  show ((Mark.unescape (segments.flatMap (Segment.resolved stash))).bind Entity.decode) = _
  rw [Segment.unescape_segments segments hwell]
  exact Segment.decode_segments segments hwell

/-- Markup with tags around a reference. -/
def taggedReference : Text := "<b title=\"c\">&amp;</b>".toList

/-- A heading with stored markup, of which the mark goes over the start of an element, and an
escaped angle bracket. -/
def cutHeading : Tree :=
  ⟨"h2", [], some ("a \x02wzxhz".toList), some "t".toList,
    [⟨"em", [], some "dk:0\x03lt".toList, some ";\x0260\x03".toList, []⟩]⟩

/-- The ampersand that is decoded begins no reference with what follows. -/
theorem textOf_segments_cutHeading :
    (∀ s ∈ [Segment.plain "a ".toList, .stored (decimal 0) 0, .plain "lt;".toList,
        .escaped (decimal 60) '<'], s.WellFormed (Stash.ofList [taggedReference])) ∧
      cutHeading.innerText = [Segment.plain "a ".toList, .stored (decimal 0) 0, .plain "lt;".toList,
        .escaped (decimal 60) '<'].flatMap Segment.write ∧
      textOf (Stash.ofList [taggedReference]) cutHeading = .ok "a &lt;<".toList := by
  have hbody : Entity.IsBody "amp".toList := Or.inl ⟨by decide, List.all_eq_true.mp (by rfl)⟩
  have hwell : ∀ s ∈ [Segment.plain "a ".toList, .stored (decimal 0) 0, .plain "lt;".toList,
      .escaped (decimal 60) '<'], s.WellFormed (Stash.ofList [taggedReference]) := by
    simp only [List.forall_mem_cons, List.not_mem_nil, false_implies, implies_true, and_true]
    have hzero : (decimal 0).length ≤ digitLimit := by decide
    have hless : (decimal '<'.toNat).length ≤ digitLimit := by decide
    exact ⟨⟨by decide, by decide, by decide⟩,
      ⟨Mark.spells_decimal (fun _ hc => hc) hzero, taggedReference, by rfl, by decide, by decide,
        Entity.isClosed_reference hbody⟩,
      ⟨by decide, by decide, by decide⟩,
      Mark.spells_decimal Mark.isDigit_of_isAsciiDigit hless, by decide⟩
  refine ⟨hwell, by rfl, ?_⟩
  rw [textOf_segments _ cutHeading _ hwell (by rfl)]
  have hamp : Entity.decode "&amp;".toList = .ok ['&'] := Entity.decode_amp []
  have hremains : (Stash.ofList [taggedReference]).remains 0 = "&amp;".toList := by rfl
  simp only [Segment.valueAll, Segment.value, hremains, hamp]
  rfl

end Anchor

end Changelog
