import Changelog.Markdown.Parser
import Changelog.Proofs.Document.NumberReferences
import Changelog.Proofs.History.Scanning
import Changelog.Proofs.Text.LineEnds
import Mathlib.Data.List.TakeWhile

/-!
# Headings that are one reference by a number

A source of one line keeps its form when it is cleaned and no fence or markup is found in it.  When
the line is a heading of the second level that holds a reference by a decimal number, the reference
is stored and the heading keeps its mark.
-/

namespace Changelog

open Text

/-! ### Sources of one line -/

namespace Source

theorem expandTabs_eq {cs : Text} (h : '\t' ∉ cs) (column : Nat) : expandTabs column cs = cs := by
  induction cs generalizing column with
  | nil => rfl
  | cons c cs ih =>
    obtain ⟨hc, hcs⟩ := not_or.mp (mt List.mem_cons.mpr h)
    rw [expandTabs, if_neg (Ne.symm hc)]
    split
    · rw [ih hcs]
    · rw [ih hcs]

/-- The characters that cleaning changes or takes as ends of lines. -/
def unclean : List Char :=
  [Mark.opening, Mark.closing, '\r', '\t', '\n']

variable {cs : Text}

theorem lines_line (h : '\n' ∉ cs) : lines (cs ++ ['\n', '\n']) = [cs, [], []] := by
  rw [lines, splitChar_append, splitChar_plain '\n' cs h]
  rfl

theorem clean_line (h : ∀ c ∈ cs, c ∉ unclean) : clean cs = cs ++ ['\n', '\n'] := by
  have hnot {c : Char} (hc : c ∈ unclean) : c ∉ cs := fun hm => h c hm hc
  have htab : '\t' ∉ cs ++ ['\n', '\n'] := by
    rw [List.mem_append, not_or]
    exact ⟨hnot (by decide), by decide⟩
  unfold clean
  rw [dropMarks_eq (hnot (by decide)) (hnot (by decide)), normalizeLines_eq (hnot (by decide)),
    expandTabs_eq htab, clearBlank, lines_line (hnot (by decide))]
  exact List.append_assoc cs ['\n'] ['\n']

end Source

theorem Fence.store_line {cs : Text} (h : '\n' ∉ cs) (hf : readFence? cs = none) (stash : Stash) :
    store stash (cs ++ ['\n', '\n']) = (cs ++ ['\n', '\n'], stash) := by
  have hnone : readOpening? cs [[], []] = none := by
    rw [readOpening?, hf]
    rfl
  have hempty (following : List Text) : readOpening? [] following = none := rfl
  have hlines : storeLines 3 stash [cs, [], []] = ([cs, [], []], stash) := by
    simp only [storeLines, hnone, hempty, bind, Option.bind]
  unfold store
  rw [Source.lines_line h]
  show (joinWith ['\n'] (storeLines 3 stash [cs, [], []]).1,
    (storeLines 3 stash [cs, [], []]).2) = _
  rw [hlines]
  exact congrArg (·, stash) (List.append_assoc cs ['\n'] ['\n'])

/-! ### A heading of the second level -/

namespace Line

theorem headingTail?_plain {cs : Text} (hb : '\\' ∉ cs) (hn : '\n' ∉ cs)
    (hl : cs.getLast? ≠ some '#') : headingTail? cs = some (cs, []) := by
  induction cs with
  | nil => rfl
  | cons c cs ih =>
    have hc : c ≠ '\\' := fun h => hb (h ▸ List.mem_cons_self)
    have hcs : headingTail? cs = some (cs, []) := by
      refine ih (mt (List.mem_cons_of_mem c) hb) (mt (List.mem_cons_of_mem c) hn) ?_
      cases cs with
      | nil => simp
      | cons d ds => rwa [List.getLast?_cons_cons] at hl
    have hdrop := List.dropWhile_suffix (· == '#') (l := c :: cs)
    unfold headingTail?
    split
    · next hnil =>
      rw [List.dropWhile_eq_nil_iff] at hnil
      have hsign := hnil _ (List.getLast_mem (List.cons_ne_nil c cs))
      rw [List.getLast?_eq_some_getLast (List.cons_ne_nil c cs), eq_of_beq hsign] at hl
      exact absurd rfl hl
    · next rest hbreak =>
      rw [hbreak] at hdrop
      exact absurd (hdrop.subset List.mem_cons_self) hn
    · rw [if_neg hc, hcs]
      rfl

end Line

/-- A heading of the second level that is the reference by a number. -/
def numberHeading (digits : Text) : Text :=
  "## ".toList ++ Span.numberReference digits

section

variable {digits : Text}

theorem not_mem_numberHeading (hd : Mark.Digits digits) {c : Char}
    (h : (c != '&' && c != '#' && !isAsciiDigit c && c != ';' && c != ' ') = true) :
    c ∉ numberHeading digits := by
  simp only [Bool.and_eq_true, bne_iff_ne] at h
  obtain ⟨⟨⟨⟨hand, hsign⟩, hdigit⟩, hclose⟩, hspace⟩ := h
  unfold numberHeading
  rw [List.mem_append, not_or]
  refine ⟨?_, Span.not_mem_numberReference hd (by simp [hand, hsign, hdigit, hclose])⟩
  simp [hsign, hspace]

theorem Line.readHeading?_numberHeading (hd : Mark.Digits digits) :
    readHeading? (numberHeading digits) = some (2, ' ' :: Span.numberReference digits, []) := by
  have hcount : countRun '#' 6 (numberHeading digits) =
      (2, ' ' :: Span.numberReference digits) := rfl
  have hlast : (' ' :: Span.numberReference digits).getLast? = some ';' :=
    List.getLast?_eq_some_iff.mpr ⟨' ' :: '&' :: '#' :: digits, rfl⟩
  have htail : headingTail? (' ' :: Span.numberReference digits) =
      some (' ' :: Span.numberReference digits, []) := by
    refine headingTail?_plain ?_ ?_ (by rw [hlast]; decide)
    · exact mt (List.mem_append_right ['#', '#']) (not_mem_numberHeading hd (by decide))
    · exact mt (List.mem_append_right ['#', '#']) (not_mem_numberHeading hd (by decide))
  rw [readHeading?, hcount]
  exact congrArg (Option.map _) htail

theorem trim_numberReference (digits : Text) :
    trim (' ' :: Span.numberReference digits) = Span.numberReference digits := by
  have hstart : trimStart (' ' :: Span.numberReference digits) = Span.numberReference digits := rfl
  have hconcat : Span.numberReference digits = ('&' :: '#' :: digits) ++ [';'] := rfl
  rw [trim, hstart, trimEnd, dropEndWhile, hconcat, List.reverse_concat]
  show (';' :: ('&' :: '#' :: digits).reverse).reverse = _
  rw [List.reverse_cons, List.reverse_reverse]

namespace Raw

/-- The scan moves behind a text without ends of lines. -/
theorem Scan.advance_line {s : Scan} {cs rest : Text} (h : s.rest = cs ++ rest) (hn : '\n' ∉ cs) :
    s.advance cs.length = { s with rest := rest, column := s.column + cs.length } := by
  induction cs generalizing s with
  | nil =>
    cases s
    cases h
    rfl
  | cons c cs ih =>
    obtain ⟨hc, hcs⟩ := not_or.mp (mt List.mem_cons.mpr hn)
    rw [List.length_cons, Scan.advance, h]
    dsimp only [List.cons_append]
    rw [if_neg (Ne.symm hc), ih rfl hcs]
    simp only [Nat.add_assoc, Nat.add_comm 1]

theorem Scan.proceed_reference {s : Scan} {more : Text} {turn : Scan.Turn} (h : s.rest = '&' :: more)
    (ht : s.readReference = .ok turn) (steps : Nat) :
    s.proceed steps = Scan.run steps (turn.1.advance turn.2) := by
  unfold Scan.proceed
  split
  · next hnil => cases h.symm.trans hnil
  · next hbracket => cases h.symm.trans hbracket
  · rw [ht]

theorem readNumber?_reference (hd : Mark.Digits digits) (hne : digits ≠ []) (rest : Text) :
    Scan.readNumber? (digits ++ ';' :: rest) = some (digits, digits.length + 1) := by
  have hspan := Entity.spanWhile_stop isAsciiDigit digits rest ';' hd (by decide)
  obtain ⟨d, ds, rfl⟩ := List.exists_cons_of_ne_nil hne
  have hx : ¬(d = 'x' ∨ d = 'X') := by
    rintro (rfl | rfl)
    · exact absurd (hd 'x' List.mem_cons_self) (by decide)
    · exact absurd (hd 'X' List.mem_cons_self) (by decide)
  rw [List.cons_append] at hspan ⊢
  unfold Scan.readNumber?
  dsimp only
  rw [if_neg hx, hspan]
  rfl

/-- The scan in front of the reference, which stands behind the number signs of the heading. -/
def atReference (digits : Text) (stash : Stash) : Scan :=
  { Scan.start stash (numberHeading digits ++ ['\n', '\n']) with
    rest := Span.numberReference digits ++ ['\n', '\n'], column := 3, pieces := ["## ".toList] }

theorem readReference_atReference (hd : Mark.Digits digits) (hne : digits ≠ []) (stash : Stash) :
    (atReference digits stash).readReference =
      .ok ((atReference digits stash).put (Span.numberReference digits), digits.length + 3) := by
  have hrest : (atReference digits stash).rest = '&' :: '#' :: (digits ++ ';' :: ['\n', '\n']) :=
    congrArg ('&' :: '#' :: ·) (List.append_assoc digits [';'] ['\n', '\n'])
  unfold Scan.readReference
  split
  · next more h =>
    obtain rfl : digits ++ ';' :: ['\n', '\n'] = more := by
      rw [hrest] at h
      injection h with _ h
      injection h
    rw [readNumber?_reference hd hne]
    rfl
  · next more hsign h =>
    rw [hrest] at h
    injection h with _ h
    exact absurd h.symm (hsign _)
  · next hnone _ => exact absurd hrest (hnone _)

/-- A heading in which a reference stands is put out as it was read. -/
theorem store_numberHeading (hd : Mark.Digits digits) (hne : digits ≠ []) (stash : Stash) :
    store stash (numberHeading digits ++ ['\n', '\n']) =
      (numberHeading digits ++ ['\n', '\n'], stash) := by
  have hlength : (Span.numberReference digits).length = digits.length + 3 := by
    simp [Span.numberReference]
  have hrest : ((atReference digits stash).put (Span.numberReference digits)).rest =
      Span.numberReference digits ++ ['\n', '\n'] :=
    rfl
  have hadvance := Scan.advance_line hrest (Span.not_mem_numberReference hd (by decide))
  rw [hlength] at hadvance
  -- The reference is the only construct; behind it two line ends are left.
  have hrun (fuel : Nat) :
      (Scan.start stash (numberHeading digits ++ ['\n', '\n'])).run (fuel + 2) =
        { atReference digits stash with
          rest := [], line := 3, column := 0
          pieces := [['\n', '\n'], Span.numberReference digits, "## ".toList] } := by
    show (atReference digits stash).proceed (fuel + 1) = _
    rw [Scan.proceed_reference rfl (readReference_atReference hd hne stash), hadvance]
    rfl
  obtain ⟨fuel, hfuel⟩ : ∃ fuel,
      Scan.stepsFor (numberHeading digits ++ ['\n', '\n']) = fuel + 2 :=
    ⟨digits.length + 7, by simp [Scan.stepsFor, numberHeading, hlength]⟩
  unfold store
  dsimp only
  rw [hfuel, hrun]
  show (["## ".toList, Span.numberReference digits, ['\n', '\n']].flatten, stash) = _
  simp [numberHeading]

end Raw

namespace Blocks

variable {references : References}

theorem chunks_line {cs : Text} (h : '\n' ∉ cs) : chunks (cs ++ ['\n', '\n']) = [cs, []] := by
  have hsplit : splitFirst? ['\n', '\n'] (cs ++ ['\n', '\n']) = some (cs, []) := by
    induction cs with
    | nil => rfl
    | cons c cs ih =>
      obtain ⟨hc, hcs⟩ := not_or.mp (mt List.mem_cons.mpr h)
      have hafter : after? ['\n', '\n'] (c :: (cs ++ ['\n', '\n'])) = none := if_neg hc
      rw [List.cons_append, splitFirst?, hafter]
      exact congrArg (Option.map _) (ih hcs)
  have hlength : (cs ++ ['\n', '\n']).length = cs.length + 1 + 1 := by simp
  rw [chunks, splitText, hlength, splitTextWithin, hsplit]
  rfl

/-- The page of the root with the heading in it. -/
def headingPage (digits : Text) (references : References) : Page :=
  ⟨⟨"div", [], none, none, [Draft.ofText "h2" (Span.numberReference digits)]⟩, references⟩

theorem step_numberHeading (hd : Mark.Digits digits) (fill : Fill) (rest : List Text) :
    step fill none ⟨Element.bare "div", references⟩ (numberHeading digits) rest =
      ⟨headingPage digits references, rest⟩ := by
  have hlines : lines (numberHeading digits) = [numberHeading digits] :=
    splitChar_plain '\n' _ (not_mem_numberHeading hd (by decide))
  have hframe : Table.frame? (numberHeading digits) = none := by
    rw [Table.frame?, hlines]
    rfl
  have hheading : Line.findHeading? (numberHeading digits) =
      some ⟨[], true, (2, ' ' :: Span.numberReference digits, [])⟩ := by
    rw [Line.findHeading?, Line.findLine?, Line.readHeading?_numberHeading hd]
  unfold step
  rw [if_neg (show ¬_ from nofun), if_neg (show ¬_ from nofun), if_neg (show ¬_ from nofun), hframe,
    hheading]
  show addHeading fill none _ _ rest = _
  rw [addHeading]
  dsimp only
  rw [trim_numberReference]
  rfl

theorem read_numberHeading (hd : Mark.Digits digits) (references : References) :
    read references (numberHeading digits ++ ['\n', '\n']) = headingPage digits references := by
  obtain ⟨fuel, hfuel⟩ := Nat.exists_eq_add_of_le'
    (Nat.le_add_left 16 (8 * (numberHeading digits ++ ['\n', '\n']).length))
  rw [read, chunks_line (not_mem_numberHeading hd (by decide)), stepBound, hfuel, fillWithin,
    step_numberHeading hd]
  rfl

end Blocks

/-- A heading that is the reference by a number is read as the mark of the stored reference. -/
theorem Parser.read_numberHeading (hd : Mark.Digits digits) (hne : digits ≠ []) (parser : Parser) :
    parser.read (numberHeading digits) =
      (⟨"div", [], none, none, [⟨"h2", [], some (Mark.raw parser.stash.count), none, []⟩]⟩,
        ⟨parser.references, (parser.stash.store (Span.numberReference digits)).2⟩) := by
  have hclean : ∀ c ∈ numberHeading digits, c ∉ Source.unclean := by
    intro c hc hu
    simp only [Source.unclean, List.mem_cons, List.not_mem_nil, or_false] at hu
    rcases hu with rfl | rfl | rfl | rfl | rfl <;>
      exact not_mem_numberHeading hd (by decide) hc
  have hfence : Fence.readFence? (numberHeading digits) = none := rfl
  have hstore : Parser.store parser.stash (numberHeading digits ++ ['\n', '\n']) =
      (numberHeading digits ++ ['\n', '\n'], parser.stash) := by
    unfold Parser.store
    rw [Fence.store_line (not_mem_numberHeading hd (by decide)) hfence]
    exact Raw.store_numberHeading hd hne parser.stash
  unfold Parser.read
  dsimp only
  rw [Source.clean_line hclean, hstore, Blocks.read_numberHeading hd, Blocks.headingPage,
    Draft.ofText, Span.readDocument_numberReference hd hne]
  rfl

end

end Changelog
