import Changelog.Proofs.Anchors.Markup
import Changelog.Proofs.Decoration.Reference
import Changelog.Proofs.Document.NumberHeadings
import Changelog.Proofs.Document.Reading
import Changelog.Proofs.Marks.Extracted

/-!
# Sources that have a page

No source makes the decoration fail for its tree or for a mark: the root of a document is no heading,
the tags of headings have a level, and every number in a mark of an escaped character is that of a
character.  What is left is a decimal number with more digits than can be read, in the text of a
heading of the second level.
-/

namespace Changelog

open Text

/-! ### Texts of headings -/

namespace Anchor

theorem readDecimal_error {digits : Text} {e : NumberError} (h : readDecimal digits = .error e) :
    digitLimit < digits.length ∧ e = .tooManyDigits digits.length := by
  unfold readDecimal at h
  split at h
  · cases h
  · next hlong =>
    cases h
    exact ⟨Nat.lt_of_not_le hlong, rfl⟩

/-- Digits of a text that make no number because there are too many of them: they stand in a mark of
stored markup, or in a reference of the text whose marks are resolved. -/
structure Overlong (stash : Stash) (cs digits : Text) : Prop where
  long : digitLimit < digits.length
  decimal : Mark.Digits digits
  place : Mark.opening :: (Mark.rawWord ++ digits) <:+: cs ∨
    ∃ shown, (resolveRaw stash cs).bind Mark.unescape = .ok shown ∧
      '&' :: '#' :: digits <:+: shown

theorem resolveRaw_error {stash : Stash} {cs : Text} {e : NumberError}
    (h : resolveRaw stash cs = .error e) :
    ∃ digits, Overlong stash cs digits ∧ e = .tooManyDigits digits.length := by
  obtain ⟨part, digits, rest, hpart, hmark, hvalue⟩ :=
    replaceAll?_error_of_read (fun _ _ _ hr => Mark.readWord?_suffix hr) h
  obtain ⟨hlong, he⟩ := readDecimal_error (map_error hvalue)
  obtain ⟨hpart', hdigits⟩ := Mark.readWord?_eq hmark
  refine ⟨digits, ⟨hlong, hdigits, Or.inl ?_⟩, he⟩
  refine List.IsInfix.trans ?_ hpart.isInfix
  rw [hpart']
  exact ⟨[], Mark.closing :: rest, by simp only [List.nil_append, List.cons_append,
    List.append_assoc]⟩

/-- Only a decimal reference can fail to be decoded. -/
theorem decode_error {cs : Text} {e : NumberError} (h : Entity.decode cs = .error e) :
    ∃ digits, digitLimit < digits.length ∧ Mark.Digits digits ∧
      '&' :: '#' :: digits <:+: cs ∧ e = .tooManyDigits digits.length := by
  have hsuffix (part : Text) (value : Except NumberError Text) (rest : Text)
      (hr : Entity.readReference? part = some (value, rest)) : rest <:+ part := by
    obtain ⟨c, more, rfl, hmore⟩ := Entity.readReference?_suffix hr
    exact hmore.trans (List.suffix_cons c more)
  obtain ⟨part, rest, hpart, hr⟩ := replaceAll?_error Entity.reads_reference hsuffix h
  unfold Entity.readReference? at hr
  split at hr
  · next ds =>
    split at hr
    · next d digits left hs =>
      obtain ⟨hvalue, -⟩ := Prod.mk.inj (Option.some.inj hr)
      obtain ⟨hlong, he⟩ := readDecimal_error (map_error hvalue)
      obtain ⟨hds, hall, -⟩ := spanWhile_spec hs
      refine ⟨d :: digits, hlong, hall, List.IsInfix.trans ?_ hpart.isInfix, he⟩
      rw [hds]
      exact ⟨[], left, rfl⟩
    · split at hr
      · cases hr
      · cases hr
    · split at hr
      · cases hr
      · cases hr
    · cases hr
  · dsimp only at hr
    split at hr
    · cases hr
    · split at hr
      · cases hr
      · cases hr
  · cases hr

/-- The text of a heading fails to be seen for digits alone: its marks of escaped characters are
whole. -/
theorem visible_error {least : Nat} {stash : Stash}
    (hs : ∀ entry ∈ stash.entries, Mark.Written least entry) {cs : Text}
    (h : Mark.Whole least cs) {e : NumberError} (he : visible stash cs = .error e) :
    ∃ digits, Overlong stash cs digits ∧ e = .tooManyDigits digits.length := by
  unfold visible at he
  cases hraw : resolveRaw stash cs with
  | error e' =>
    rw [hraw] at he
    cases he
    exact resolveRaw_error hraw
  | ok resolved =>
    obtain ⟨shown, hshown⟩ := (h.written.resolveRaw hs hraw).unescape
    have hmarks : (resolveRaw stash cs).bind Mark.unescape = .ok shown := by
      rw [hraw]
      exact hshown
    rw [hmarks] at he
    obtain ⟨digits, hlong, hdigits, hplace, he⟩ := decode_error he
    exact ⟨digits, ⟨hlong, hdigits, Or.inr ⟨shown, hmarks, hplace⟩⟩, he⟩

end Anchor

/-! ### Headings of a tree -/

namespace Element

theorem restyled_error {stash : Stash} {e own : Tree} {err : DecorateError}
    (h : restyled stash e = (own, some err)) :
    e.tag = "h2" ∧ ∃ cause, Anchor.textOf stash e = .error cause ∧ err = .text cause := by
  unfold restyled at h
  split at h
  · next hh =>
    obtain ⟨level, hl, -, hanchor, -⟩ := look_of_heading e.tag hh
    rw [hl] at h
    dsimp only at h
    rw [hanchor] at h
    split at h
    · next h2 =>
      refine ⟨of_decide_eq_true h2, ?_⟩
      split at h
      · next cause hcause =>
        cases h
        exact ⟨cause, hcause, rfl⟩
      · cases h
    · cases h
  · split at h
    · cases h
    · split at h
      · cases h
      · cases h

mutual

/-- Where the decoration of a tree breaks off, the text of a heading of the second level cannot be
read. -/
theorem decorateTree_error (stash : Stash) {err : DecorateError} : ∀ e : Tree,
    (decorateTree stash e).2 = some err →
    ∃ (address : Address) (heading : Tree) (cause : NumberError),
      e.at? address = some heading ∧ heading.tag = "h2" ∧
        Anchor.textOf stash heading = .error cause ∧ err = .text cause
  | ⟨tag, attrs, text, tail, children⟩, h => by
    unfold decorateTree at h
    cases hr : restyled stash ⟨tag, attrs, text, tail, children⟩ with
    | mk own failure =>
      rw [hr] at h
      cases failure with
      | some e =>
        cases h
        obtain ⟨h2, cause, hcause, he⟩ := restyled_error hr
        exact ⟨[], _, cause, rfl, h2, hcause, he⟩
      | none =>
        obtain ⟨i, address, heading, cause, hat, hheading⟩ :=
          decorateForest_error stash children h
        exact ⟨i :: address, heading, cause, (at?_cons _ i address).trans hat, hheading⟩

theorem decorateForest_error (stash : Stash) {err : DecorateError} : ∀ es : List Tree,
    (decorateForest stash es).2 = some err →
    ∃ (i : Nat) (address : Address) (heading : Tree) (cause : NumberError),
      es[i]?.bind (fun e : Tree => e.at? address) = some heading ∧ heading.tag = "h2" ∧
        Anchor.textOf stash heading = .error cause ∧ err = .text cause
  | [], h => by cases h
  | e :: es, h => by
    unfold decorateForest at h
    cases hd : decorateTree stash e with
    | mk first failure =>
      rw [hd] at h
      cases failure with
      | some e' =>
        cases h
        obtain ⟨address, heading, cause, hheading⟩ := decorateTree_error stash e (by rw [hd])
        exact ⟨0, address, heading, cause, hheading⟩
      | none =>
        obtain ⟨i, address, heading, cause, hheading⟩ := decorateForest_error stash es h
        exact ⟨i + 1, address, heading, cause, hheading⟩

end

end Element

/-! ### Pages -/

open Element

/-- All marks of the texts that a parser reads are whole when those that it remembers are. -/
theorem Parser.read_whole {least : Nat} {parser : Parser} (source : Text)
    (hs : parser.stash.OnlyRaw least)
    (hr : References.Sound (Grade.whole least) parser.references) :
    (parser.read source).1.tag = "div" ∧
      Graded (Grade.whole least) (parser.read source).1 ∧
      (parser.read source).2.stash.Sound (Grade.whole least) := by
  obtain ⟨hfenced, hstash⟩ := Fence.onlyRaw_store hs (Source.opening_not_mem_clean source)
  obtain ⟨hstored, hentries⟩ := Raw.onlyRaw_store hstash hfenced
  obtain ⟨⟨document, hread, hroot⟩, hsound⟩ :=
    Parser.read_sound (g := Grade.whole least) hstored.whole
      ⟨hentries.counted, fun entry he => (hentries.entries entry he).whole.written⟩ hr
  refine ⟨?_, hread ▸ hroot.graded, hsound⟩
  rw [hread]
  cases document with
  | mk tag attrs text tail children => exact hroot.tag

/-- The link targets hold whole marks as well. -/
theorem Parser.references_whole {least : Nat} {parser : Parser} (source : Text)
    (hs : parser.stash.OnlyRaw least)
    (hr : References.Sound (Grade.whole least) parser.references) :
    References.Sound (Grade.whole least) (parser.read source).2.references := by
  obtain ⟨hfenced, hstash⟩ := Fence.onlyRaw_store hs (Source.opening_not_mem_clean source)
  obtain ⟨hstored, -⟩ := Raw.onlyRaw_store hstash hfenced
  exact Parser.references_read (g := Grade.whole least) hstored.whole hr

/-- Why a source has no page: a heading of the second level with a number of too many digits. -/
theorem render_error {source : Text} {err : DecorateError} (h : render source = .error err) :
    ∃ digits address heading, (Parser.fresh.read source).1.at? address = some heading ∧
      heading.tag = "h2" ∧
      Anchor.Overlong (Parser.fresh.read source).2.stash heading.innerText digits ∧
      err = .text (.tooManyDigits digits.length) := by
  have hempty : Parser.fresh.stash.OnlyRaw 0 := ⟨Nat.le_refl 0, List.forall_mem_nil _⟩
  obtain ⟨htag, hgraded, -, hentries⟩ :=
    Parser.read_whole source hempty (List.forall_mem_nil _)
  have hdecorate : (decorate (Parser.fresh.read source).2.stash
      (Parser.fresh.read source).1).2 = some err := by
    have hbody := map_error h
    unfold Parser.render at hbody
    split at hbody
    · cases hbody
    · dsimp only at hbody
      split at hbody
      · next e hd =>
        cases hbody
        rw [hd]
      · cases hbody
  have hroot : headingTags.contains (Parser.fresh.read source).1.tag = false := by
    rw [htag]
    decide
  rw [decorate_eq_decorateTree _ _ hroot] at hdecorate
  obtain ⟨address, heading, cause, hat, h2, hcause, rfl⟩ := decorateTree_error _ _ hdecorate
  obtain ⟨digits, hlong, rfl⟩ :=
    Anchor.visible_error hentries (hgraded.at? hat).innerText hcause
  exact ⟨digits, address, heading, hat, h2, hlong, rfl⟩

theorem render_of_decorate {source : Text} {tree : Tree} {after : Parser} {err : DecorateError}
    (hblank : isBlank source = false) (hread : Parser.fresh.read source = (tree, after))
    (hdecorate : (decorate after.stash tree).2 = some err) : render source = .error err := by
  unfold render Parser.render
  rw [hblank, if_neg Bool.false_ne_true, hread]
  dsimp only
  generalize decorate after.stash tree = attempt at hdecorate ⊢
  obtain ⟨changed, failure⟩ := attempt
  dsimp only at hdecorate
  subst hdecorate
  rfl

/-- A reference by a number with too many digits has no text to be seen. -/
theorem Anchor.textOf_numberReference {digits : Text} (hd : Mark.Digits digits)
    (hlong : digitLimit < digits.length) :
    textOf (Stash.empty.store (Span.numberReference digits)).2
      ⟨"h2", [], some (Mark.raw 0), none, []⟩ = .error (.tooManyDigits digits.length) := by
  have hopening : Mark.opening ∉ Span.numberReference digits :=
    Span.not_mem_numberReference hd (by decide)
  have hraw : resolveRaw (Stash.empty.store (Span.numberReference digits)).2 (Mark.raw 0 ++ []) =
      .ok (dropTags (Span.numberReference digits) ++ []) :=
    resolveRaw_raw (by decide) rfl []
  rw [List.append_nil, List.append_nil,
    Stash.IsClear.dropTags_of_not_mem _ (Span.not_mem_numberReference hd (by decide))] at hraw
  have hdecode : Entity.decode (Span.numberReference digits) =
      .error (.tooManyDigits digits.length) := by
    have hne : digits ≠ [] := List.ne_nil_of_length_pos (Nat.zero_lt_of_lt hlong)
    rw [Span.numberReference, Entity.decode_number digits [] hne hd, readDecimal,
      if_neg (Nat.not_le_of_lt hlong)]
    rfl
  show visible _ (Mark.raw 0) = _
  rw [visible, hraw]
  show (Mark.unescape (Span.numberReference digits)).bind Entity.decode = _
  rw [Mark.unescape_of_not_mem hopening]
  exact hdecode

theorem Element.restyled_of_textOf {stash : Stash} {e : Tree} {cause : NumberError}
    (h2 : e.tag = "h2") (h : Anchor.textOf stash e = .error cause) :
    (restyled stash e).2 = some (.text cause) := by
  have hheading : headingTags.contains e.tag = true := by
    rw [h2]
    decide
  obtain ⟨level, hl, -, hanchor, -⟩ := look_of_heading e.tag hheading
  unfold restyled
  rw [if_pos hheading, hl]
  dsimp only
  rw [hanchor, if_pos (decide_eq_true h2), h]

theorem Element.decorateForest_of_restyled {stash : Stash} {e : Tree} {es : List Tree}
    {err : DecorateError} (h : (restyled stash e).2 = some err) :
    (decorateForest stash (e :: es)).2 = some err := by
  cases e
  rw [decorateForest, decorateTree]
  cases hr : restyled stash _ with
  | mk own failure =>
    rw [hr] at h
    cases h
    rfl

/-- A source that is a reference by a number with too many digits, as a heading, has no page. -/
theorem render_numberHeading {digits : Text} (hd : Mark.Digits digits)
    (hlong : digitLimit < digits.length) :
    render (numberHeading digits) = .error (.text (.tooManyDigits digits.length)) := by
  have hne : digits ≠ [] := List.ne_nil_of_length_pos (Nat.zero_lt_of_lt hlong)
  have hblank : isBlank (numberHeading digits) = false := rfl
  refine render_of_decorate hblank (Parser.read_numberHeading hd hne Parser.fresh) ?_
  rw [decorate_eq_decorateTree _ _ rfl]
  exact decorateForest_of_restyled
    (restyled_of_textOf rfl (Anchor.textOf_numberReference hd hlong))

/-- A heading that is one reference with a digit more than can be read. -/
def longReference : Text :=
  "## &#".toList ++ List.replicate 4301 '1' ++ [';']

theorem longReference_eq : longReference = numberHeading (List.replicate 4301 '1') :=
  List.append_assoc "## &#".toList (List.replicate 4301 '1') [';']

theorem render_longReference :
    render longReference = .error (.text (.tooManyDigits 4301)) := by
  have hd : Mark.Digits (List.replicate 4301 '1') := by
    intro c hc
    rw [List.eq_of_mem_replicate hc]
    rfl
  have hlength : (List.replicate 4301 '1').length = 4301 := List.length_replicate
  have hlong : digitLimit < (List.replicate 4301 '1').length := by
    rw [hlength]
    decide
  rw [longReference_eq, render_numberHeading hd hlong, hlength]

end Changelog
