import Changelog.Markdown.Span.Reading
import Changelog.Proofs.Document.Lines
import Changelog.Proofs.Document.Sound

/-!
# Readers of running text are sound

What a reader makes is sound when the text it reads is of a grade, and a reader takes effect at no
character that may stand in a mark, so that no mark is cut in front of it.
-/

namespace Changelog

open Element Text

variable {g : Grade}

/-! ### The shelf -/

/-- Whether a settled piece of text is sound. -/
def Span.Sound (g : Grade) : Span → Prop
  | .element d => Element.Sound g d
  | .text chars => g.running chars

/-- All stored markup is of the grade, and the next mark is one of its marks. -/
structure Stash.Sound (g : Grade) (stash : Stash) : Prop where
  counted : g.least ≤ stash.count
  entries : ∀ entry ∈ stash.entries, g.markup entry

theorem Stash.Sound.store {stash : Stash} (h : stash.Sound g) {markup : Text}
    (hm : g.markup markup) : (stash.store markup).2.Sound g :=
  ⟨Nat.le_succ_of_le h.counted,
    List.forall_mem_append.mpr ⟨h.entries, List.forall_mem_singleton.mpr hm⟩⟩

/-- All spans on the shelf are sound, and so is the stash. -/
structure Shelf.Sound (g : Grade) (shelf : Shelf) : Prop where
  spans : ∀ span ∈ shelf.spans.toList, span.Sound g
  stash : shelf.stash.Sound g

namespace Shelf.Sound

variable {shelf : Shelf}

theorem put (h : shelf.Sound g) (span : Span) (hs : span.Sound g) :
    (shelf.put span).2.Sound g := by
  refine ⟨?_, h.stash⟩
  intro other ho
  simp only [Shelf.put, Array.toList_push, List.mem_append, List.mem_singleton] at ho
  rcases ho with ho | rfl
  · exact h.spans other ho
  · exact hs

theorem store (h : shelf.Sound g) {markup : Text} (hm : g.markup markup) :
    Shelf.Sound g { shelf with stash := (shelf.stash.store markup).2 } :=
  ⟨h.spans, h.stash.store hm⟩

theorem find {digits : Text} {span : Span} (h : shelf.Sound g)
    (hf : shelf.find? digits = some span) : span.Sound g :=
  h.spans span (Mark.find?_mem hf)

theorem plainSpan (h : shelf.Sound g) :
    ∀ span ∈ shelf.spans.toList, g.running (Shelf.plainSpan span) := by
  intro span hs
  have hsound := h.spans span hs
  cases span with
  | element d => exact hsound.graded.innerText
  | text chars => exact hsound

theorem running_plain (h : shelf.Sound g) {cs : Text} (hc : g.running cs) :
    g.running (shelf.plain cs) :=
  g.running_marks h.plainSpan hc

theorem value_plain (h : shelf.Sound g) {cs : Text} (hc : g.value cs) :
    g.value (shelf.plain cs) :=
  g.value_marks h.plainSpan hc

theorem written (h : shelf.Sound g) (depth : Nat) {cs : Text} (hc : g.markup cs) :
    g.markup (shelf.written depth cs) := by
  induction depth generalizing cs with
  | zero => exact hc
  | succ depth ih =>
    refine g.markup_marks ?_ hc
    intro span hs
    have hsound := h.spans span hs
    cases span with
    | element d => exact ih hsound.graded.write
    | text chars => exact g.markup_of_running (Grade.cons (by decide) hsound)

theorem restore (h : shelf.Sound g) {cs : Text} (hc : g.running cs) :
    g.markup (Span.restore shelf cs) := by
  have hwritten := h.written (shelf.spans.size + 1) (g.markup_of_running hc)
  unfold Span.restore
  dsimp only
  split
  · next plain hp => exact g.unescaped hwritten hp
  · exact hwritten

/-- Every mark that comes up has its character when the texts have whole marks, as they have in all
that a parser reads. -/
theorem restore_eq {least : Nat} (h : shelf.Sound (Grade.whole least)) {cs : Text}
    (hc : Mark.Whole least cs) :
    Mark.unescape (shelf.written (shelf.spans.size + 1) cs) = .ok (Span.restore shelf cs) := by
  have hwritten : Mark.Written least (shelf.written (shelf.spans.size + 1) cs) :=
    h.written (shelf.spans.size + 1) (Mark.Whole.written hc)
  obtain ⟨shown, hshown⟩ := hwritten.unescape
  unfold Span.restore
  dsimp only
  rw [hshown]

end Shelf.Sound

theorem Grade.lead {word : Text} {c : Char} (hw : c = 'k' ∨ c = 'a')
    (h : Mark.opening ∉ word) : g.running (Mark.opening :: c :: word) := by
  show g.running ([Mark.opening, c] ++ word)
  exact g.append (g.word hw) (g.free h)

theorem opening_not_mem_decimal (n : Nat) : Mark.opening ∉ decimal n := fun hm =>
  Mark.ne_of_isInner ((Mark.digits_decimal n).inner _ hm) (by decide) rfl

theorem Grade.spanLead : g.running (Mark.opening :: Mark.spanWord) :=
  Grade.lead (Or.inl rfl) (by decide)

theorem Grade.spanMark (index : Nat) : g.running (Mark.span index) := by
  show g.running (Mark.opening :: Mark.spanWord ++ Mark.spanName index ++ [Mark.closing])
  refine g.append (g.append Grade.spanLead (g.free ?_)) (g.free (by decide))
  rw [Mark.spanName, decimalPadded, List.mem_append, not_or]
  refine ⟨fun hm => ?_, opening_not_mem_decimal index⟩
  have hzero := List.eq_of_mem_replicate hm
  revert hzero
  decide

theorem Grade.ampersand : g.running Mark.ampersand :=
  Grade.lead (Or.inr rfl) (by decide)

namespace Span

/-! ### What readers make -/

/-- Whether a value that a reader makes is sound. -/
def Value.Sound (g : Grade) : Value → Prop
  | .element d => Element.Sound g d
  | .text chars => g.running chars
  | .markup chars => g.markup chars

/-- Whether an outcome goes on behind a part of the text, with a sound value in its place when the
text is of the grade. -/
def Outcome.Sound (g : Grade) (cs : Text) : Outcome → Prop
  | .replace value rest => rest <:+ cs ∧ (g.running cs → value.Sound g)
  | .pass rest => rest <:+ cs

/-- A reader that takes effect outside marks only, and whose outcomes are sound. -/
def Reads (g : Grade) (read : Reader) : Prop :=
  ∀ before cs outcome, read before cs = some outcome →
    (∃ c more, cs = c :: more ∧ Mark.isInner c = false) ∧ outcome.Sound g cs

/-! ### Code, escapes and breaks -/

/-- The part before a run of ticks, and the run. -/
theorem untilTicks_eq {size fuel : Nat} {cs inside left : Text}
    (h : untilTicks size fuel cs = some (inside, left)) :
    ∃ ticks, cs = inside ++ (ticks ++ left) ∧ (∀ c ∈ ticks, c = tick) ∧ ticks.length = size := by
  induction fuel generalizing cs inside with
  | zero => cases h
  | succ fuel ih =>
    cases cs with
    | nil => cases h
    | cons c cs =>
      unfold untilTicks at h
      split at h
      · have hsplit := spanWhile_append (· == tick) (c :: cs)
        have hall := spanWhile_all (· == tick) (c :: cs)
        dsimp only at h
        split at h
        · next hsize =>
          cases h
          exact ⟨_, hsplit.symm, fun d hd => eq_of_beq (List.all_eq_true.mp hall d hd), hsize⟩
        · obtain ⟨⟨before, after⟩, hr, heq⟩ := Option.map_eq_some_iff.mp h
          cases heq
          obtain ⟨ticks, hcs, hticks⟩ := ih hr
          rw [hcs, ← List.append_assoc] at hsplit
          exact ⟨ticks, hsplit.symm, hticks⟩
      · obtain ⟨⟨before, after⟩, hr, heq⟩ := Option.map_eq_some_iff.mp h
        cases heq
        obtain ⟨ticks, hcs, hticks⟩ := ih hr
        exact ⟨ticks, congrArg (c :: ·) hcs, hticks⟩

theorem readTicks_spec {run size : Nat} {rest inside left : Text}
    (h : readTicks run rest size = some (inside, left)) :
    left <:+ rest ∧ (g.running rest → g.running inside) := by
  induction size with
  | zero => cases h
  | succ size ih =>
    unfold readTicks at h
    split at h
    · next part behind hu =>
      cases h
      obtain ⟨ticks, rfl, hticks, hlen⟩ := untilTicks_eq hu
      refine ⟨⟨part ++ ticks, by rw [List.append_assoc]⟩, fun hr => ?_⟩
      refine g.append (g.free fun hm => ?_) ?_
      · have hopen := List.eq_of_mem_replicate hm
        revert hopen
        decide
      · cases ticks with
        | nil => cases hlen
        | cons c ticks =>
          rw [hticks c List.mem_cons_self] at hr
          exact Grade.cutBefore hr (by decide)
    · exact ih h

theorem running_flatten {pieces : List Text} (h : ∀ piece ∈ pieces, g.running piece) :
    g.running pieces.flatten := by
  induction pieces with
  | nil => exact Grade.empty
  | cons piece pieces ih =>
    obtain ⟨hpiece, hothers⟩ := List.forall_mem_cons.mp h
    exact g.append hpiece (ih hothers)

theorem reads_code : Reads g readCode := by
  intro before cs outcome h
  unfold readCode at h
  split at h
  · cases h
  split at h
  · next more =>
    dsimp only at h
    split at h
    · cases h
      refine ⟨⟨_, _, rfl, by decide⟩, spanWhile_suffix _ _, fun _ => ?_⟩
      refine running_flatten fun mark hm => ?_
      rw [List.eq_of_mem_replicate hm]
      exact g.escaped (c := '\\') (by decide)
    · cases h
  · dsimp only at h
    split at h
    · next inside left hr =>
      cases h
      obtain ⟨hleft, hinside⟩ := readTicks_spec (g := g) hr
      have hrest := spanWhile_suffix (· == tick) cs
      refine ⟨?_, hleft.trans hrest, fun hc => ?_⟩
      · cases cs with
        | nil => cases hr
        | cons c cs =>
          by_cases hc : c = tick
          · exact ⟨c, cs, rfl, hc ▸ by decide⟩
          · have hnone : (c == tick) = false := beq_eq_false_iff_ne.mpr hc
            simp only [spanWhile, hnone] at hr
            cases hr
      · exact sound_leaf (by decide) (g.code (Grade.trim (hinside (g.suffix hc hrest))))
    · cases h

theorem reads_escape : Reads g readEscape := by
  intro before cs outcome h
  unfold readEscape at h
  split at h
  · next c rest =>
    refine ⟨⟨_, _, rfl, by decide⟩, ?_⟩
    split at h
    · next hc =>
      cases h
      refine ⟨⟨['\\', c], rfl⟩, fun _ => g.escaped fun ho => ?_⟩
      rw [ho] at hc
      revert hc
      decide
    · cases h
      exact ⟨['\\', c], rfl⟩
  · cases h

theorem reads_break : Reads g readBreak := by
  intro before cs outcome h
  unfold readBreak at h
  split at h
  · cases h
    exact ⟨⟨_, _, rfl, by decide⟩, ⟨[' ', ' ', '\n'], rfl⟩, fun _ => sound_bare (by decide)⟩
  · cases h

theorem reads_loneMarks : Reads g readLoneMarks := by
  intro before cs outcome h
  unfold readLoneMarks at h
  cases cs with
  | nil => cases h
  | cons c cs =>
    simp only [Option.ite_none_right_eq_some] at h
    obtain ⟨hmark, -, h⟩ := h
    cases h
    have hc : c = '*' ∨ c = '_' := by
      rw [Bool.and_eq_true, Bool.or_eq_true] at hmark
      exact hmark.2.imp eq_of_beq eq_of_beq
    refine ⟨⟨c, cs, rfl, by rcases hc with rfl | rfl <;> decide⟩, spanWhile_suffix _ _,
      fun _ => g.free fun hm => ?_⟩
    have hopen := eq_of_beq (List.all_eq_true.mp (spanWhile_all (· == c) (c :: cs)) _ hm)
    rw [← hopen] at hc
    revert hc
    decide

/-! ### Addresses -/

theorem inner_ne {d : Char} (hd : Mark.isInner d = false) (c : Char)
    (hc : Mark.isInner c = true) : (c != d) = true :=
  bne_iff_ne.mpr (Mark.ne_of_isInner hc hd)

theorem reads_webAddress {shelf : Shelf} (hs : shelf.Sound g) : Reads g (readWebAddress shelf) := by
  intro before cs outcome h
  unfold readWebAddress at h
  split at h
  · next inner =>
    refine ⟨⟨_, _, rfl, by decide⟩, ?_⟩
    split at h
    · cases h
    · split at h
      · next address rest haddress =>
        cases h
        obtain ⟨hinner, -, -⟩ := spanWhile_spec haddress
        refine ⟨⟨'<' :: (address ++ ['>']), by rw [hinner]; simp⟩, fun hr => ?_⟩
        have hrun : g.running address :=
          Grade.span (g.suffix hr (List.suffix_cons _ _)) haddress fun c hc => by
            rw [inner_ne (by decide) c hc, inner_ne (by decide) c hc]
            rfl
        have hlink := (sound_bare (g := g) (by decide : "a" ∈ documentTags)).set
          (by decide : "href" ∈ documentAttrs) (hs.value_plain (g.value_of_running hrun))
        exact hlink.withText hrun
      · cases h
  · cases h

theorem running_disguise (c : Char) : g.running (disguise c) := by
  rw [disguise_eq]
  exact g.append Grade.ampersand (g.free (Mark.opening_not_mem_code c))

theorem running_disguiseByNumber (c : Char) : g.running (disguiseByNumber c) := by
  refine g.append Grade.ampersand (g.free ?_)
  rw [List.mem_cons, List.mem_append, not_or, not_or]
  exact ⟨by decide, opening_not_mem_decimal _, by decide⟩

theorem running_flatMap {image : Char → Text} (hi : ∀ c, g.running (image c)) (cs : Text) :
    g.running (cs.flatMap image) := by
  refine running_flatten fun piece hp => ?_
  obtain ⟨c, -, rfl⟩ := List.mem_map.mp hp
  exact hi c

theorem sound_mailDraft (address : Text) : Element.Sound g (mailDraft address) := by
  have htarget : g.running (("mailto:".toList ++
      (after? "mailto:".toList address).getD address).flatMap disguiseByNumber) :=
    running_flatMap running_disguiseByNumber _
  have hlink := (sound_bare (g := g) (by decide : "a" ∈ documentTags)).set
    (by decide : "href" ∈ documentAttrs) (g.value_of_running htarget)
  unfold mailDraft
  refine hlink.withText ?_
  exact running_flatMap running_disguise _

theorem reads_mailAddress (shelf : Shelf) : Reads g (readMailAddress shelf) := by
  intro before cs outcome h
  unfold readMailAddress at h
  split at h
  · next inner =>
    refine ⟨⟨_, _, rfl, by decide⟩, ?_⟩
    split at h
    · next address rest haddress =>
      split at h
      · cases h
        obtain ⟨hinner, -, -⟩ := spanWhile_spec haddress
        exact ⟨⟨'<' :: (address ++ ['>']), by rw [hinner]; simp⟩, fun _ => sound_mailDraft _⟩
      · cases h
    · cases h
  · cases h

end Span

end Changelog
