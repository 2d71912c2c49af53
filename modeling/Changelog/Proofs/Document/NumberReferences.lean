import Changelog.Proofs.Anchors.References
import Changelog.Proofs.Document.Spans

/-!
# References by number in running text

The readers of code, escapes, links, images, addresses, breaks and markup take effect at a few
characters only.  A reference by a decimal number holds none of them, so it is stored as it stands,
and a mark is left in its place.
-/

namespace Changelog.Span

open Text

variable {references : References} {shelf : Shelf} {cs : Text}

/-- A reader that takes effect at no character of a text finds nothing in it. -/
theorem search_eq_none {read : Reader}
    (h : ∀ c ∈ cs, ∀ before rest, read before (c :: rest) = none) : search read cs = none := by
  have hwithin (fuel : Nat) (before : Text) : searchWithin read fuel before cs = none := by
    induction cs generalizing fuel before with
    | nil => cases fuel <;> rfl
    | cons c cs ih =>
      obtain ⟨hc, hcs⟩ := List.forall_mem_cons.mp h
      cases fuel with
      | zero => rfl
      | succ fuel =>
        rw [searchWithin, hc before cs]
        exact ih hcs fuel (c :: before)
  exact hwithin cs.length []

/-- The characters at which the readers before that of references take effect. -/
def starters : List Char :=
  ['\\', tick, '[', '!', '<', ' ']

theorem readCode_eq_none {c : Char} (h : c ∉ starters) (before rest : Text) :
    readCode before (c :: rest) = none := by
  simp only [starters, List.mem_cons, not_or] at h
  have hrun : (spanWhile (· == tick) (c :: rest)).1 = [] := by simp [spanWhile, h]
  unfold readCode
  split
  · rfl
  · split
    · next heq => simp_all
    · simp [hrun, readTicks]

theorem readers_take_eq_none {c : Char} (h : c ∉ starters) {read : Reader}
    (hm : read ∈ (readers references shelf).take 12) (before rest : Text) :
    read before (c :: rest) = none := by
  have hcode := readCode_eq_none h before rest
  simp only [starters, List.mem_cons, not_or] at h
  simp only [readers, List.take_succ_cons, List.take_zero, List.mem_cons, List.not_mem_nil,
    or_false] at hm
  rcases hm with rfl | rfl | rfl | rfl | rfl | rfl | rfl | rfl | rfl | rfl | rfl | rfl
  · exact hcode
  · simp [readEscape, h]
  · simp [readReference, readLinkText?, h]
  · simp [readLink, h]
  · simp [readImage, readImageText?, h]
  · simp [readImageReference, readImageText?, h]
  · simp [readReference, readLinkText?, h]
  · simp [readImageReference, readImageText?, h]
  · simp [readWebAddress, h]
  · simp [readMailAddress, h]
  · simp [readBreak, h]
  · simp [readMarkup, h]

/-- Turns of readers that find nothing. -/
theorem readWithin_skip (fuel count turn : Nat)
    (h : ∀ i < count, ∃ read, (readers references shelf)[turn + i]? = some read ∧
      search read cs = none) :
    readWithin references (fuel + count) turn cs shelf =
      readWithin references fuel (turn + count) cs shelf := by
  induction count generalizing turn with
  | zero => rfl
  | succ count ih =>
    obtain ⟨read, hread, hnone⟩ := h 0 (Nat.succ_pos count)
    have hlater : ∀ i < count, ∃ read, (readers references shelf)[turn + 1 + i]? = some read ∧
        search read cs = none := by
      intro i hi
      have hi' := h (i + 1) (Nat.succ_lt_succ hi)
      rwa [show turn + (i + 1) = turn + 1 + i by omega] at hi'
    rw [show fuel + (count + 1) = (fuel + count) + 1 by omega, readWithin]
    rw [Nat.add_zero] at hread
    simp only [hread, hnone]
    rw [ih (turn + 1) hlater, show turn + 1 + count = turn + (count + 1) by omega]

/-- The reference by a number with the given digits. -/
def numberReference (digits : Text) : Text :=
  '&' :: '#' :: (digits ++ [';'])

section

variable {digits : Text} {stash : Stash}

theorem mem_numberReference {c : Char} (hd : Mark.Digits digits) (h : c ∈ numberReference digits) :
    c = '&' ∨ c = '#' ∨ isAsciiDigit c = true ∨ c = ';' := by
  simp only [numberReference, List.mem_cons, List.mem_append, List.not_mem_nil, or_false] at h
  exact h.imp id (Or.imp id (Or.imp (hd c) id))

theorem not_mem_numberReference {c : Char} (hd : Mark.Digits digits)
    (h : (c != '&' && c != '#' && !isAsciiDigit c && c != ';') = true) :
    c ∉ numberReference digits := by
  intro hm
  rcases mem_numberReference hd hm with rfl | rfl | hc | rfl
  · cases h
  · cases h
  · simp [hc] at h
  · cases h

theorem restore_of_not_mem (shelf : Shelf) (h : Mark.opening ∉ cs) : restore shelf cs = cs := by
  have hwritten : shelf.written (shelf.spans.size + 1) cs = cs := by
    apply replaceAll_none
    intro c ds ⟨before, hb⟩
    have hc : c ≠ Mark.opening := by
      rintro rfl
      exact h (hb ▸ List.mem_append_right before List.mem_cons_self)
    rw [Mark.readSpan?, Mark.readWord?_of_ne hc]
    rfl
  unfold restore
  dsimp only
  rw [hwritten, Mark.unescape_of_not_mem h]

theorem search_numberReference (shelf : Shelf) (hd : Mark.Digits digits) (hne : digits ≠ []) :
    search (readCharacterReference shelf) (numberReference digits) =
      some ⟨[], .markup (numberReference digits), []⟩ := by
  have hspan := Entity.spanWhile_stop isAsciiDigit digits [] ';' hd (by decide)
  have hopening : Mark.opening ∉ numberReference digits :=
    not_mem_numberReference hd (by decide)
  obtain ⟨d, ds, rfl⟩ := List.exists_cons_of_ne_nil hne
  have hx : d ≠ 'x' := by
    rintro rfl
    exact absurd (hd 'x' List.mem_cons_self) (by decide)
  have hbody : readReferenceBody? ('#' :: (d :: ds ++ [';'])) =
      some ('#' :: (d :: ds ++ [';']), []) := by
    rw [List.cons_append] at hspan ⊢
    rw [readReferenceBody?, hspan]
    · rfl
    · rintro cs heq
      exact hx (List.cons.inj heq).1
  have hread : readCharacterReference shelf [] (numberReference (d :: ds)) =
      some (.replace (.markup (numberReference (d :: ds))) []) := by
    show (readReferenceBody? ('#' :: (d :: ds ++ [';']))).map _ = _
    rw [hbody]
    exact congrArg (fun cs => some (Outcome.replace (.markup cs) []))
      (restore_of_not_mem shelf hopening)
  have hwithin (fuel : Nat) :
      searchWithin (readCharacterReference shelf) (fuel + 1) [] (numberReference (d :: ds)) =
        some ⟨[], .markup (numberReference (d :: ds)), []⟩ := by
    rw [numberReference] at hread ⊢
    rw [searchWithin, hread]
  exact hwithin _

/-- The shelf on which a reference lies as stored markup. -/
def shelfOf (markup : Text) (stash : Stash) : Shelf :=
  ⟨#[.text (stash.store markup).1], (stash.store markup).2⟩

theorem readWithin_numberReference (hd : Mark.Digits digits) (hne : digits ≠ []) (fuel : Nat) :
    readWithin references (fuel + 4 + 12) 0 (numberReference digits) ⟨#[], stash⟩ =
      (Mark.span 0, shelfOf (numberReference digits) stash) := by
  have hplain : ∀ c ∈ numberReference digits, c ∉ starters := by
    intro c hc hs
    simp only [starters, List.mem_cons, List.not_mem_nil, or_false] at hs
    rcases hs with rfl | rfl | rfl | rfl | rfl | rfl <;>
      exact not_mem_numberReference hd (by decide) hc
  have hfirst : ∀ i < 12, ∃ read, (readers references ⟨#[], stash⟩)[0 + i]? = some read ∧
      search read (numberReference digits) = none := by
    intro i hi
    have hlength : i < (readers references ⟨#[], stash⟩).length := by
      simp only [readers, List.length_cons, List.length_nil]
      omega
    have hget := List.getElem?_eq_getElem hlength
    have hmem : (readers references ⟨#[], stash⟩)[i] ∈ (readers references ⟨#[], stash⟩).take 12 :=
      List.mem_of_getElem? ((List.getElem?_take_of_lt hi).trans hget)
    rw [Nat.zero_add]
    exact ⟨_, hget, search_eq_none fun c hc => readers_take_eq_none (hplain c hc) hmem⟩
  -- Behind the reference only its own reader and that of lone marks are left.
  have hreference : search (readCharacterReference (shelfOf (numberReference digits) stash))
      (Mark.span 0) = none := by
    apply search_eq_none
    intro c hc before rest
    have hc' : c ≠ '&' := by
      rintro rfl
      exact absurd hc (by decide)
    simp [readCharacterReference, hc']
  have hmarks : search readLoneMarks (Mark.span 0) = none := by
    apply search_eq_none
    intro c hc before rest
    have hc' : c ≠ '*' ∧ c ≠ '_' := by
      constructor <;>
      · rintro rfl
        exact absurd hc (by decide)
    simp [readLoneMarks, hc']
  have hshelve : shelve (readWithin references (fuel + 3)) 12 (.markup (numberReference digits))
      ⟨#[], stash⟩ = (Mark.span 0, shelfOf (numberReference digits) stash) := rfl
  have hlast : readWithin references (fuel + 3) 12 (Mark.span 0)
      (shelfOf (numberReference digits) stash) =
        (Mark.span 0, shelfOf (numberReference digits) stash) := by
    rw [readWithin]
    simp only [readers, List.getElem?_cons_succ, List.getElem?_cons_zero, hreference]
    rw [readWithin]
    simp only [readers, List.getElem?_cons_succ, List.getElem?_cons_zero, hmarks]
    rfl
  rw [readWithin_skip _ 12 0 hfirst, readWithin]
  simp only [readers, Nat.zero_add, List.getElem?_cons_succ, List.getElem?_cons_zero,
    search_numberReference _ hd hne, hshelve, List.reverse_nil, List.nil_append, List.append_nil,
    hlast]

theorem readText_numberReference (hd : Mark.Digits digits) (hne : digits ≠ []) :
    readText references (numberReference digits) ⟨#[], stash⟩ =
      (Mark.span 0, shelfOf (numberReference digits) stash) := by
  have hbound : 16 ≤ readBound (numberReference digits).length := by
    have hleast : 20 * 2 * 2 ≤ readBound (numberReference digits).length :=
      Nat.mul_le_mul (Nat.mul_le_mul_left 20 (Nat.le_add_left 2 _)) (Nat.le_add_left 2 _)
    omega
  obtain ⟨fuel, hfuel⟩ := Nat.exists_eq_add_of_le' hbound
  unfold readText
  rw [hfuel]
  exact readWithin_numberReference hd hne fuel

/-- A document with a reference as its only text keeps the mark of the stored reference. -/
theorem readDocument_numberReference (hd : Mark.Digits digits) (hne : digits ≠ []) (tag : String) :
    readDocument references
        ⟨"div", [], none, none, [⟨tag, [], some (.running (numberReference digits)), none, []⟩]⟩
        stash =
      (⟨"div", [], none, none, [⟨tag, [], some (.running (Mark.raw stash.count)), none, []⟩]⟩,
        (stash.store (numberReference digits)).2) := by
  have hread := @readText_numberReference references digits stash hd hne
  have hscan : scanChildren references 4
      [(⟨tag, [], some (.running (numberReference digits)), none, []⟩, false)] ⟨#[], stash⟩ =
      ([⟨⟨tag, [], some (.running (Mark.raw stash.count)), none, []⟩, [], false⟩],
        shelfOf (numberReference digits) stash) := by
    rw [scanChildren]
    dsimp only [Piece.running]
    rw [hread]
    rfl
  have hvisit (fuel : Nat) : visitChildren references (fuel + 1)
      [(⟨tag, [], some (.running (numberReference digits)), none, []⟩, false)] ⟨#[], stash⟩ =
      ([⟨tag, [], some (.running (Mark.raw stash.count)), none, []⟩],
        shelfOf (numberReference digits) stash) := by
    have hsucc : visitChildren references (fuel + 1)
        [(⟨tag, [], some (.running (numberReference digits)), none, []⟩, false)] ⟨#[], stash⟩ =
        let scanned := scanChildren references 4
          [(⟨tag, [], some (.running (numberReference digits)), none, []⟩, false)] ⟨#[], stash⟩
        let visited := visitReverse (visitScanned references fuel) scanned.1 scanned.2
        visitReverse (visitAgain references fuel) visited.1 visited.2 := rfl
    rw [hsucc, hscan]
    rfl
  unfold readDocument weight
  rw [List.map_cons, List.map_nil, hvisit]
  rfl

end

end Changelog.Span
