import Changelog.Proofs.Document.Blocks
import Mathlib.Data.List.Basic

/-!
# Blocks are added to their end

What a block leaves for later steps is shorter than the block, and so is what is added inside it; an
item without its indent may be as long, but it is not read for an indent again.  So the bound on the
steps is never met, and more steps would change nothing.
-/

namespace Changelog

open Text

/-! ### Lengths of lines -/

namespace Line

/-- The length of lines or blocks, each counted with its end. -/
def weight : List Text → Nat
  | [] => 0
  | piece :: pieces => piece.length + 1 + weight pieces

theorem weight_cons (piece : Text) (pieces : List Text) :
    weight (piece :: pieces) = piece.length + 1 + weight pieces :=
  rfl

theorem weight_append (pieces others : List Text) :
    weight (pieces ++ others) = weight pieces + weight others := by
  induction pieces with
  | nil => exact (Nat.zero_add _).symm
  | cons piece pieces ih =>
    rw [List.cons_append, weight_cons, weight_cons, ih]
    omega

theorem weight_sublist {pieces others : List Text} (h : pieces.Sublist others) :
    weight pieces ≤ weight others := by
  induction h with
  | slnil => exact Nat.le_refl _
  | cons piece _ ih => exact Nat.le_trans ih (Nat.le_add_left _ _)
  | cons_cons piece _ ih => exact Nat.add_le_add_left ih _

theorem weight_mem {pieces : List Text} {piece : Text} (h : piece ∈ pieces) :
    piece.length + 1 ≤ weight pieces :=
  weight_sublist (List.singleton_sublist.mpr h)

theorem weight_map {change : Text → Text} (h : ∀ line, (change line).length ≤ line.length)
    (pieces : List Text) : weight (pieces.map change) ≤ weight pieces := by
  induction pieces with
  | nil => exact Nat.le_refl 0
  | cons piece pieces ih =>
    have hpiece := h piece
    rw [List.map_cons, weight_cons, weight_cons]
    omega

theorem length_joinWith (pieces : List Text) :
    (joinWith ['\n'] pieces).length = weight pieces - 1 := by
  induction pieces with
  | nil => rfl
  | cons piece pieces ih =>
    cases pieces with
    | nil => rfl
    | cons next others =>
      rw [weight_cons] at ih
      rw [joinWith_cons_cons, List.length_append, List.length_append, ih, weight_cons, weight_cons]
      simp only [List.length_cons, List.length_nil]
      omega

theorem weight_lines (cs : Text) : weight (lines cs) = cs.length + 1 := by
  unfold lines
  induction cs with
  | nil => rfl
  | cons c cs ih =>
    unfold splitChar
    split
    · rw [weight_cons, ih, List.length_cons, List.length_nil]
      omega
    · split
      · next hnil =>
        rw [hnil] at ih
        cases ih
      · next piece pieces hs =>
        rw [hs, weight_cons] at ih
        rw [weight_cons, List.length_cons, List.length_cons]
        omega

theorem length_dedentLines_le (steps : Nat) (cs : Text) :
    (dedentLines steps cs).length ≤ cs.length := by
  have hline (line : Text) : ((dedent? (4 * steps) line).getD line).length ≤ line.length := by
    cases hd : dedent? (4 * steps) line with
    | none => exact Nat.le_refl _
    | some inner => exact (dedent?_suffix hd).length_le
  have hweight := weight_map hline (lines cs)
  rw [weight_lines] at hweight
  rw [dedentLines, length_joinWith]
  omega

theorem weight_splitIndented (pieces : List Text) :
    weight (splitIndented pieces).2 ≤ weight pieces := by
  induction pieces with
  | nil => exact Nat.le_refl 0
  | cons line pieces ih =>
    unfold splitIndented
    split
    · exact Nat.le_trans ih (Nat.le_add_left _ _)
    · split
      · exact Nat.le_trans ih (Nat.le_add_left _ _)
      · exact Nat.le_refl _

/-- The first line of a text, and the lines behind it. -/
theorem lines_cases (cs : Text) : ∃ line, '\n' ∉ line ∧
    (cs = line ∧ lines cs = [line] ∨
      ∃ more, cs = line ++ '\n' :: more ∧ lines cs = line :: lines more) := by
  obtain ⟨line, rest, hspan⟩ : ∃ line rest, spanWhile (· != '\n') cs = (line, rest) := ⟨_, _, rfl⟩
  obtain ⟨hcs, hall, hhead⟩ := spanWhile_spec hspan
  have hline : '\n' ∉ line := fun hm => absurd (hall _ hm) (by decide)
  refine ⟨line, hline, ?_⟩
  subst hcs
  cases rest with
  | nil =>
    rw [List.append_nil]
    exact Or.inl ⟨rfl, splitChar_plain '\n' line hline⟩
  | cons c more =>
    obtain rfl : c = '\n' := by simpa using hhead c rfl
    refine Or.inr ⟨more, rfl, ?_⟩
    rw [lines, splitChar_append, splitChar_plain '\n' line hline]
    rfl

theorem lines_append {front : Text} (h : '\n' ∉ front) (cs : Text) :
    ∃ line others, lines cs = line :: others ∧ lines (front ++ cs) = (front ++ line) :: others := by
  induction front with
  | nil =>
    obtain ⟨line, -, ⟨-, hl⟩ | ⟨more, -, hl⟩⟩ := lines_cases cs
    · exact ⟨line, [], hl, hl⟩
    · exact ⟨line, lines more, hl, hl⟩
  | cons c front ih =>
    obtain ⟨hc, hfront⟩ := not_or.mp (mt List.mem_cons.mpr h)
    obtain ⟨line, others, hcs, hlines⟩ := ih hfront
    refine ⟨line, others, hcs, ?_⟩
    unfold lines at hlines ⊢
    rw [List.cons_append, splitChar, if_neg (Ne.symm hc), hlines]
    rfl

theorem length_detab_lt {cs : Text} (h : isIndented cs = true) : (detab cs).2.length < cs.length := by
  obtain ⟨inner, hinner⟩ := Option.isSome_iff_exists.mp h
  obtain rfl := (after?_eq_some_iff _ _ _).mp hinner
  have hspaces : '\n' ∉ List.replicate 4 ' ' := by decide
  obtain ⟨line, others, hlines, hfirst⟩ := lines_append hspaces inner
  have hdedent : dedent? 4 (List.replicate 4 ' ' ++ line) = some line :=
    (after?_eq_some_iff _ _ _).mpr rfl
  have hweight := weight_lines (List.replicate 4 ' ' ++ inner)
  have hothers := weight_splitIndented others
  rw [hfirst, weight_cons, List.length_append, List.length_append] at hweight
  rw [detab, hfirst, splitIndented, hdedent, length_joinWith, List.length_append]
  dsimp only
  simp only [List.length_replicate] at hweight ⊢
  omega

/-! ### Lines that are shorter once they were read -/

theorem readHeading?_lt {cs header rest : Text} {level : Nat}
    (h : readHeading? cs = some (level, header, rest)) : rest.length < cs.length := by
  unfold readHeading? at h
  split at h
  · cases h
  · next level behind hpos hrun =>
    obtain ⟨⟨front, left⟩, htail, heq⟩ := Option.map_eq_some_iff.mp h
    cases heq
    have hleft := (headingTail?_spec htail).2.length_le
    cases cs with
    | nil =>
      cases hrun
      exact (hpos rfl).elim
    | cons c cs =>
      have hcount : countRun '#' 6 (c :: cs) =
          if c = '#' then ((countRun '#' 5 cs).1 + 1, (countRun '#' 5 cs).2) else (0, c :: cs) :=
        rfl
      rw [hcount] at hrun
      split at hrun
      · have hbehind := (countRun_suffix '#' 5 cs).length_le
        cases hrun
        show left.length < cs.length + 1
        omega
      · cases hrun
        exact (hpos rfl).elim

theorem readItemText?_lt {cs rest : Text} (h : readItemText? cs = some rest) :
    rest.length < cs.length := by
  unfold readItemText? at h
  split at h
  · next left =>
    cases h
    exact Nat.lt_succ_of_le (skipAllSpaces_suffix left).length_le
  · cases h

theorem readItem?_lt {line rest : Text} (h : readItem? line = some rest) :
    rest.length < line.length := by
  have hskip := (skipSpaces_suffix 3 line).length_le
  rcases Option.or_eq_some_iff.mp h with h | ⟨-, h⟩
  · obtain ⟨left, hleft, hrest⟩ := Option.bind_eq_some_iff.mp h
    have hmark := (readOrdinal?_suffix hleft).length_le
    have htext := readItemText?_lt hrest
    omega
  · obtain ⟨left, hleft, hrest⟩ := Option.bind_eq_some_iff.mp h
    have hmark := (readBullet?_suffix hleft).length_le
    have htext := readItemText?_lt hrest
    omega

theorem readQuote?_lt {cs rest : Text} (h : readQuote? cs = some rest) :
    rest.length < cs.length := by
  have hskip := (skipSpaces_suffix 3 cs).length_le
  unfold readQuote? at h
  split at h
  · next left hs =>
    cases h
    rw [hs, List.length_cons, List.length_cons] at hskip
    omega
  · next left _ hs =>
    cases h
    rw [hs, List.length_cons] at hskip
    omega
  · cases h

theorem length_unquote_le (line : Text) : (unquote line).length ≤ line.length := by
  unfold unquote
  split
  · exact Nat.zero_le _
  · cases hq : readQuote? line with
    | none => exact Nat.le_refl _
    | some rest => exact Nat.le_of_lt (readQuote?_lt hq)

theorem length_unquote_lt {line : Text} (h : (readQuote? line).isSome = true) :
    (unquote line).length < line.length := by
  obtain ⟨rest, hrest⟩ := Option.isSome_iff_exists.mp h
  have hlt := readQuote?_lt hrest
  unfold unquote
  split
  · exact Nat.zero_lt_of_lt hlt
  · rw [hrest]
    exact hlt

/-! ### What is read is in the first line -/

section

variable {line : Text}

theorem skipSpaces_line (limit : Nat) (line more : Text) :
    skipSpaces limit (line ++ '\n' :: more) = skipSpaces limit line ++ '\n' :: more := by
  fun_induction skipSpaces limit line with
  | case1 limit cs ih => exact ih
  | case2 limit cs hspace =>
    unfold skipSpaces
    split
    · next left heq =>
      cases cs with
      | nil => cases heq
      | cons c cs =>
        obtain ⟨rfl, -⟩ := List.cons.inj heq
        exact (hspace _ cs rfl rfl).elim
    · rfl

theorem spanWhile_line {p : Char → Bool} (hp : p '\n' = false) (line more : Text) :
    spanWhile p (line ++ '\n' :: more) =
      ((spanWhile p line).1, (spanWhile p line).2 ++ '\n' :: more) := by
  induction line with
  | nil => simp [spanWhile, hp]
  | cons c line ih =>
    rw [List.cons_append, spanWhile, spanWhile]
    split
    · rw [ih]
    · rfl

theorem readItemText?_line (cs more : Text) :
    (readItemText? (cs ++ '\n' :: more)).isSome = (readItemText? cs).isSome := by
  cases cs with
  | nil => rfl
  | cons c cs =>
    by_cases hc : c = ' '
    · subst hc
      rfl
    · simp [readItemText?, hc]

theorem readOrdered?_line {more : Text} (h : (readOrdered? (line ++ '\n' :: more)).isSome = true) :
    (readOrdered? line).isSome = true := by
  unfold readOrdered? at h ⊢
  rw [skipSpaces_line] at h
  generalize skipSpaces 3 line = cs at h ⊢
  unfold readOrdinal? at h ⊢
  rw [spanWhile_line (by decide)] at h
  generalize spanWhile isDigit cs = span at h ⊢
  obtain ⟨digits, rest⟩ := span
  cases digits with
  | nil => simp at h
  | cons d ds =>
    cases rest with
    | nil => simp at h
    | cons c rest =>
      by_cases hc : c = '.'
      · subst hc
        simpa [readItemText?_line] using h
      · simp [hc] at h

theorem readUnordered?_line {more : Text}
    (h : (readUnordered? (line ++ '\n' :: more)).isSome = true) :
    (readUnordered? line).isSome = true := by
  unfold readUnordered? at h ⊢
  rw [skipSpaces_line] at h
  generalize skipSpaces 3 line = cs at h ⊢
  cases cs with
  | nil => exact absurd h (by simp [readBullet?])
  | cons c cs =>
    rw [List.cons_append, readBullet?] at h
    rw [readBullet?]
    split
    · next hc =>
      rw [if_pos hc] at h
      exact (readItemText?_line cs more).symm.trans h
    · next hc =>
      rw [if_neg hc] at h
      exact h

theorem readQuote?_line {more : Text} (h : (readQuote? (line ++ '\n' :: more)).isSome = true) :
    (readQuote? line).isSome = true := by
  unfold readQuote? at h ⊢
  rw [skipSpaces_line] at h
  generalize skipSpaces 3 line = cs at h ⊢
  cases cs with
  | nil => simp at h
  | cons c cs =>
    by_cases hc : c = '>'
    · subst hc
      split
      · rfl
      · rfl
      · next _ hnone => exact (hnone cs rfl).elim
    · simp [hc] at h

end

end Line

namespace Blocks

open Line

variable {fill fill' : Fill} {mood : Option Mood} {page : Page} {block : Text} {rest : List Text}

/-! ### Lengths of blocks -/

theorem weight_chunks_le (cs : Text) : weight (chunks cs) ≤ cs.length + 1 := by
  have hwithin (fuel : Nat) (cs : Text) :
      weight (splitTextWithin ['\n', '\n'] fuel cs) ≤ cs.length + 1 := by
    induction fuel generalizing cs with
    | zero => exact Nat.le_refl _
    | succ fuel ih =>
      unfold splitTextWithin
      split
      · exact Nat.le_refl _
      · next before left hs =>
        have hleft := ih left
        rw [weight_cons, splitFirst?_eq _ _ _ _ hs]
        simp only [List.length_append, List.length_cons, List.length_nil]
        omega
  exact hwithin cs.length cs

theorem weight_requeue_lt {after : Text} (h : after.length < block.length) :
    weight (requeue after rest) < weight (block :: rest) := by
  unfold requeue
  rw [weight_cons]
  split
  · omega
  · rw [weight_cons]
    omega

/-! ### Items -/

theorem weight_extendLast (items : List Text) (line : Text) :
    weight (extendLast items line) = weight items + (line.length + 1) := by
  unfold extendLast
  split
  · next hnil =>
    obtain rfl := List.reverse_eq_nil_iff.mp hnil
    simp [weight]
  · next item others hitems =>
    obtain rfl := List.reverse_eq_iff.mp hitems
    rw [List.reverse_cons, List.reverse_cons, weight_append, weight_append]
    simp only [weight, List.length_append, List.length_cons]
    omega

theorem weight_addItemLine (items : List Text) (line : Text) :
    weight (addItemLine items line) ≤ weight items + (line.length + 1) := by
  unfold addItemLine
  split
  · next text ht =>
    have hlt := readItem?_lt ht
    rw [weight_append]
    show weight items + (text.length + 1) ≤ _
    omega
  · split
    · exact Nat.le_of_eq (weight_append items [line])
    · exact Nat.le_of_eq (weight_extendLast items line)

theorem weight_addItemLines (all items : List Text) :
    weight (all.foldl addItemLine items) ≤ weight items + weight all := by
  induction all generalizing items with
  | nil => exact Nat.le_refl _
  | cons line all ih =>
    have hline := weight_addItemLine items line
    have hall := ih (addItemLine items line)
    rw [List.foldl_cons, weight_cons]
    omega

/-- The items of a list are shorter than its block, for the first loses its mark. -/
theorem weight_items_le (h : opensOrdered block = true ∨ opensUnordered block = true) :
    weight (items block) ≤ block.length := by
  have hread {line : Text} (hl : (readOrdered? line).isSome = true ∨
      (readUnordered? line).isSome = true) (others : List Text) :
      weight ((line :: others).foldl addItemLine []) < weight (line :: others) := by
    obtain ⟨text, htext⟩ : ∃ text, readItem? line = some text := by
      refine Option.isSome_iff_exists.mp ?_
      rw [readItem?, Option.isSome_or, Bool.or_eq_true]
      exact hl
    have hfirst : addItemLine [] line = [text] := by
      rw [addItemLine, htext]
      rfl
    have hothers := weight_addItemLines others [text]
    have hlt := readItem?_lt htext
    rw [List.foldl_cons, hfirst, weight_cons]
    simp only [weight_cons] at hothers
    have hnil : weight [] = 0 := rfl
    omega
  have hweight := weight_lines block
  unfold items
  obtain ⟨line, -, ⟨rfl, hl⟩ | ⟨more, rfl, hl⟩⟩ := lines_cases block
  · have hlt := hread h []
    rw [hl] at hweight ⊢
    omega
  · have hlt := hread (h.imp readOrdered?_line readUnordered?_line) (lines more)
    rw [hl] at hweight ⊢
    omega

/-! ### Blocks around what was found -/

theorem before_lt {α : Type} {read : Text → Option α} {found : Found α}
    (hf : findLine? read block = some found) (hb : found.before ≠ []) :
    found.before.length < block.length := by
  obtain ⟨behind, -, ⟨-, hnil, -⟩ | ⟨-, hblock⟩⟩ := findLine?_spec hf
  · exact absurd hnil hb
  · rw [hblock, List.length_append, List.length_cons]
    omega

theorem splitAtRule?_eq {pieces before after : List Text}
    (h : splitAtRule? pieces = some (before, after)) :
    ∃ line, line ≠ [] ∧ pieces = before ++ line :: after := by
  induction pieces generalizing before with
  | nil => cases h
  | cons line pieces ih =>
    unfold splitAtRule? at h
    split at h
    · next hrule =>
      cases h
      refine ⟨line, ?_, rfl⟩
      rintro rfl
      cases hrule
    · obtain ⟨r, hr, heq⟩ := Option.map_eq_some_iff.mp h
      cases heq
      obtain ⟨rule, hne, hpieces⟩ := ih hr
      exact ⟨rule, hne, congrArg (line :: ·) hpieces⟩

/-- The lines before a rule and those after it are shorter than the block. -/
theorem weight_rule {before after : List Text}
    (hs : splitAtRule? (lines block) = some (before, after)) :
    weight before + weight after < block.length := by
  obtain ⟨line, hne, hlines⟩ := splitAtRule?_eq hs
  have hweight := weight_lines block
  have hpos := List.length_pos_of_ne_nil hne
  rw [hlines, weight_append, weight_cons] at hweight
  omega

/-- The lines of a quote, without their marks, are shorter than the block. -/
theorem weight_quote {found : Found Text} (hf : findQuote? block = some found) :
    weight ((lines (if found.first then found.value else '\n' :: found.value)).map unquote) ≤
      block.length := by
  obtain ⟨behind, hread, hplace⟩ := findLine?_spec hf
  obtain ⟨inner, hinner, rfl⟩ := Option.map_eq_some_iff.mp hread
  have hquote : (readQuote? found.value).isSome = true :=
    Option.isSome_iff_exists.mpr ⟨inner, hinner⟩
  have hvalue : weight ((lines found.value).map unquote) ≤ found.value.length := by
    have hweight := weight_lines found.value
    have hfirst {line : Text} (hl : (readQuote? line).isSome = true) (others : List Text) :
        weight ((line :: others).map unquote) < weight (line :: others) := by
      have hlt := length_unquote_lt hl
      have hothers := weight_map length_unquote_le others
      rw [List.map_cons, weight_cons, weight_cons]
      omega
    obtain ⟨line, -, ⟨hv, hl⟩ | ⟨more, hv, hl⟩⟩ := lines_cases found.value
    · have hlt := hfirst (hv ▸ hquote) []
      rw [hl] at hweight ⊢
      omega
    · have hlt := hfirst (readQuote?_line (hv ▸ hquote)) (lines more)
      rw [hl] at hweight ⊢
      omega
  rcases hplace with ⟨hfirst, -, hblock⟩ | ⟨hfirst, hblock⟩
  · rw [hfirst, if_pos rfl, ← hblock]
    exact hvalue
  · have hlines : lines ('\n' :: found.value) = [] :: lines found.value := rfl
    have hempty : unquote [] = [] := rfl
    rw [hfirst, if_neg Bool.false_ne_true, hlines, List.map_cons, weight_cons, hempty, hblock,
      List.length_append, List.length_cons, List.length_nil]
    omega

/-! ### Ways of filling that agree -/

/-- The steps that are left for some blocks.  An item without its indent may be as long as its block,
but it is added in another mood. -/
def stepsLeft (mood : Option Mood) (blocks : List Text) : Nat :=
  2 * weight blocks + if mood = some .dedented then 0 else 1

/-- Two ways of filling agree where fewer steps are left. -/
def Fill.Agree (steps : Nat) (fill fill' : Fill) : Prop :=
  ∀ mood page blocks, stepsLeft mood blocks < steps → fill mood page blocks = fill' mood page blocks

theorem stepsLeft_lt {mood' : Option Mood} {blocks : List Text} (h : weight blocks ≤ block.length) :
    stepsLeft mood' blocks < stepsLeft mood (block :: rest) := by
  unfold stepsLeft
  rw [weight_cons]
  split <;> split <;> omega

variable (h : fill.Agree (stepsLeft mood (block :: rest)) fill')

include h

theorem fillInside_congr {mood' : Option Mood} {blocks : List Text}
    (hb : stepsLeft mood' blocks < stepsLeft mood (block :: rest)) (page : Page) (inner : Draft)
    (place : Draft → Draft) :
    page.fillInside fill mood' inner blocks place =
      page.fillInside fill' mood' inner blocks place := by
  unfold Page.fillInside
  rw [h mood' _ blocks hb]

theorem fillLast_congr {mood' : Option Mood} {blocks : List Text}
    (hb : stepsLeft mood' blocks < stepsLeft mood (block :: rest)) (page : Page) :
    page.fillLast fill mood' blocks = page.fillLast fill' mood' blocks := by
  unfold Page.fillLast
  simp only [fillInside_congr h hb]

theorem fillNew_congr {mood' : Option Mood} {blocks : List Text}
    (hb : stepsLeft mood' blocks < stepsLeft mood (block :: rest)) (page : Page) (tag : String) :
    page.fillNew fill mood' tag blocks = page.fillNew fill' mood' tag blocks :=
  fillInside_congr h hb page _ _

theorem addToItem_congr (hm : mood ≠ some .dedented) (page : Page) :
    addToItem fill mood page block rest = addToItem fill' mood page block rest := by
  have hitem (level : Nat) : stepsLeft (some .dedented) [dedentLines level block] <
      stepsLeft mood (block :: rest) := by
    have hle := length_dedentLines_le level block
    unfold stepsLeft
    rw [if_pos rfl, if_neg hm, weight_cons, weight_cons]
    have hnil : weight [] = 0 := rfl
    omega
  have hchunks (level : Nat) : stepsLeft (some .dedented) (chunks (dedentLines level block)) <
      stepsLeft mood (block :: rest) := by
    have hle := length_dedentLines_le level block
    have hweight := weight_chunks_le (dedentLines level block)
    unfold stepsLeft
    rw [if_pos rfl, if_neg hm, weight_cons]
    omega
  unfold addToItem
  dsimp only
  simp only [fillLast_congr h (hitem _), fillInside_congr h (hitem _),
    fillInside_congr h (hchunks _), h _ _ _ (hitem _)]

theorem fill_before_congr {before : Text} (hb : before ≠ [] → before.length < block.length)
    (page : Page) : (if before.isEmpty then page else fill mood page [before]) =
      if before.isEmpty then page else fill' mood page [before] := by
  cases before with
  | nil => rfl
  | cons c before =>
    exact h mood page _ (stepsLeft_lt (hb (List.cons_ne_nil c before)))

theorem addHeading_congr {found : Found (Nat × Text × Text)} (hf : findHeading? block = some found)
    (page : Page) : addHeading fill mood page found rest = addHeading fill' mood page found rest := by
  unfold addHeading
  rw [fill_before_congr h (before_lt hf) page]

theorem addRule_congr {before after : List Text}
    (hs : splitAtRule? (lines block) = some (before, after)) (page : Page) :
    addRule fill mood page before after rest = addRule fill' mood page before after rest := by
  have hweight := weight_rule hs
  have hpre : (dropEndWhile (· == '\n') (joinWith ['\n'] before)).length < block.length := by
    have hle := (prefix_dropEndWhile (· == '\n') (joinWith ['\n'] before)).length_le
    rw [length_joinWith] at hle
    omega
  unfold addRule
  dsimp only
  rw [fill_before_congr h (fun _ => hpre) page]

theorem addItem_congr {item : Text} (hi : item.length + 1 ≤ block.length) (list : Page) :
    addItem fill list item = addItem fill' list item := by
  have hone : stepsLeft (some .list) [item] < stepsLeft mood (block :: rest) := stepsLeft_lt hi
  unfold addItem
  rw [fillLast_congr h hone, fillNew_congr h hone]

theorem addList_congr (ho : opensOrdered block = true ∨ opensUnordered block = true) (tag : String)
    (page : Page) : addList fill tag page block rest = addList fill' tag page block rest := by
  have hitems := weight_items_le ho
  have hfold {all : List Text} (hall : all.Sublist (items block)) (list : Page) :
      all.foldl (addItem fill) list = all.foldl (addItem fill') list :=
    List.foldl_ext _ _ list fun list item hi =>
      addItem_congr h (Nat.le_trans (weight_mem (hall.subset hi)) hitems) list
  have hfirst : stepsLeft (some .looseList) ((items block).take 1) <
      stepsLeft mood (block :: rest) :=
    stepsLeft_lt (Nat.le_trans (weight_sublist (List.take_sublist 1 _)) hitems)
  unfold addList addList.addNew
  simp only [hfold (List.Sublist.refl _), hfold (List.drop_sublist 1 _), fillNew_congr h hfirst]

theorem addQuote_congr {found : Found Text} (hf : findQuote? block = some found) (page : Page) :
    addQuote fill mood page found rest = addQuote fill' mood page found rest := by
  have hinner := weight_quote hf
  have hpos : 0 < block.length := by
    obtain ⟨behind, hread, hplace⟩ := findLine?_spec hf
    obtain ⟨inner, hinner, -⟩ := Option.map_eq_some_iff.mp hread
    have hlt := readQuote?_lt hinner
    rcases hplace with ⟨-, -, rfl⟩ | ⟨-, hblock⟩
    · omega
    · rw [hblock, List.length_append, List.length_cons]
      omega
  have hbefore : found.before.length < block.length := by
    by_cases hb : found.before = []
    · rwa [hb]
    · exact before_lt hf hb
  have hquoted : stepsLeft (some .quote) (chunks (joinWith ['\n']
      ((lines (if found.first then found.value else '\n' :: found.value)).map unquote))) <
        stepsLeft mood (block :: rest) := by
    refine stepsLeft_lt (Nat.le_trans (weight_chunks_le _) ?_)
    rw [length_joinWith]
    omega
  have hone : stepsLeft mood [found.before] < stepsLeft mood (block :: rest) := stepsLeft_lt hbefore
  unfold addQuote
  dsimp only
  simp only [h mood page _ hone, fillLast_congr h hquoted, fillNew_congr h hquoted]

omit h

theorem step_congr (h : fill.Agree (stepsLeft mood (block :: rest)) fill') (page : Page) :
    step fill mood page block rest = step fill' mood page block rest := by
  unfold step
  split
  · rfl
  split
  · next hitem =>
    refine addToItem_congr h ?_ page
    rintro rfl
    simp [continuesItem] at hitem
  split
  · rfl
  split
  · rfl
  split
  · next found hf => exact addHeading_congr h hf page
  split
  · rfl
  split
  · next before after hs => exact addRule_congr h hs page
  split
  · next ho => exact addList_congr h (Or.inl ho) "ol" page
  split
  · next ho => exact addList_congr h (Or.inr ho) "ul" page
  split
  · next found hf => exact addQuote_congr h hf page
  · rfl

/-! ### Steps that shorten the blocks -/

theorem weight_rest_lt : weight rest < weight (block :: rest) := by
  rw [weight_cons]
  omega

theorem addHeading_shrinks {found : Found (Nat × Text × Text)} (hf : findHeading? block = some found)
    (page : Page) : weight (addHeading fill mood page found rest).rest < weight (block :: rest) := by
  obtain ⟨before, first, level, header, after⟩ := found
  obtain ⟨behind, hread, hplace⟩ := findLine?_spec hf
  have hafter : after.length < block.length := by
    have hlt := readHeading?_lt hread
    rcases hplace with ⟨-, -, rfl⟩ | ⟨-, hblock⟩
    · exact hlt
    · rw [hblock, List.length_append, List.length_cons]
      omega
  refine weight_requeue_lt ?_
  split
  · exact Nat.lt_of_le_of_lt (length_dedentLines_le 1 after) hafter
  · exact hafter

theorem exists_of_two_lt {pieces : List Text} (h : 2 < pieces.length) :
    ∃ first second others, pieces = first :: second :: others := by
  match pieces, h with
  | first :: second :: others, _ => exact ⟨first, second, others, rfl⟩

theorem addUnderlined_shrinks (page : Page) (level : Nat) :
    weight (addUnderlined page level block rest).rest < weight (block :: rest) := by
  unfold addUnderlined
  dsimp only
  split
  · exact weight_rest_lt
  · next hmany =>
    have hweight := weight_lines block
    obtain ⟨first, under, more, hl⟩ : ∃ first under more, lines block = first :: under :: more :=
      exists_of_two_lt (Nat.lt_of_not_le hmany)
    rw [hl, weight_cons, weight_cons] at hweight
    rw [hl]
    show weight (joinWith ['\n'] more :: rest) < _
    rw [weight_cons, weight_cons, length_joinWith]
    omega

theorem addRule_shrinks {before after : List Text}
    (hs : splitAtRule? (lines block) = some (before, after)) (page : Page) :
    weight (addRule fill mood page before after rest).rest < weight (block :: rest) := by
  have hweight := weight_rule hs
  have hdrop := (List.dropWhile_suffix (· == '\n') (l := joinWith ['\n'] after)).length_le
  rw [length_joinWith] at hdrop
  exact weight_requeue_lt (by omega)

theorem addTargets_le (steps : Nat) (references : References) (target : Target) :
    (addTargets steps references target).2.length ≤ target.rest.length := by
  induction steps generalizing references target with
  | zero => exact Nat.le_refl _
  | succ steps ih =>
    have hdrop := (List.dropWhile_suffix (· == '\n') (l := target.rest)).length_le
    unfold addTargets
    dsimp only
    split
    · next next hnext =>
      obtain ⟨-, -, -, hlt⟩ := readTarget?_spec hnext
      exact Nat.le_trans (ih _ next) (Nat.le_trans (Nat.le_of_lt hlt) hdrop)
    · exact hdrop

theorem weight_requeueUnlessBlank (block : Text) (rest : List Text) :
    weight (requeueUnlessBlank block rest) ≤ block.length + 1 + weight rest := by
  unfold requeueUnlessBlank
  split
  · omega
  · exact Nat.le_of_eq (weight_cons block rest)

theorem addTarget_shrinks {found : Found Target} (hf : findTarget? block = some found)
    (page : Page) : weight (addTarget page found rest).rest < weight (block :: rest) := by
  obtain ⟨behind, hread, hplace⟩ := findLine?_spec hf
  obtain ⟨-, -, -, hlt⟩ := readTarget?_spec hread
  have hafter := addTargets_le (found.value.rest.length + 1) page.references found.value
  have hrest := weight_requeueUnlessBlank
    (addTargets (found.value.rest.length + 1) page.references found.value).2 rest
  unfold addTarget
  dsimp only
  rw [weight_cons]
  rcases hplace with ⟨-, hbefore, rfl⟩ | ⟨-, hblock⟩
  · rw [hbefore]
    show weight (requeueUnlessBlank _ rest) < _
    omega
  · have hbefore := (prefix_dropEndWhile (· == '\n') found.before).length_le
    have hall := weight_requeueUnlessBlank (dropEndWhile (· == '\n') found.before)
      (requeueUnlessBlank
        (addTargets (found.value.rest.length + 1) page.references found.value).2 rest)
    rw [hblock, List.length_append, List.length_cons]
    omega

theorem step_shrinks (fill : Fill) (mood : Option Mood) (page : Page) (block : Text)
    (rest : List Text) : weight (step fill mood page block rest).rest < weight (block :: rest) := by
  unfold step
  split
  · cases block with
    | nil => exact weight_rest_lt
    | cons c others => exact weight_requeue_lt (Nat.lt_succ_self _)
  split
  · exact weight_rest_lt
  split
  · next hindent => exact weight_requeue_lt (length_detab_lt hindent)
  split
  · exact weight_rest_lt
  split
  · next found hf => exact addHeading_shrinks hf page
  split
  · next level _ => exact addUnderlined_shrinks page level
  split
  · next before after hs => exact addRule_shrinks hs page
  split
  · exact weight_rest_lt
  split
  · exact weight_rest_lt
  split
  · exact weight_rest_lt
  split
  · next found hf => exact addTarget_shrinks hf page
  · exact weight_rest_lt

/-! ### Steps that suffice -/

theorem fillWithin_congr {fuel fuel' : Nat} {mood : Option Mood} {blocks : List Text}
    (h : stepsLeft mood blocks ≤ fuel) (h' : stepsLeft mood blocks ≤ fuel') (page : Page) :
    fillWithin fuel mood page blocks = fillWithin fuel' mood page blocks := by
  induction fuel generalizing fuel' mood blocks page with
  | zero =>
    cases blocks with
    | nil => cases fuel' <;> rfl
    | cons block rest =>
      unfold stepsLeft at h
      rw [weight_cons] at h
      omega
  | succ fuel ih =>
    cases blocks with
    | nil => cases fuel' <;> rfl
    | cons block rest =>
      cases fuel' with
      | zero =>
        unfold stepsLeft at h'
        rw [weight_cons] at h'
        omega
      | succ fuel' =>
        have hagree : (fillWithin fuel).Agree (stepsLeft mood (block :: rest)) (fillWithin fuel') :=
          fun mood' page' blocks' hb => ih (Nat.le_of_lt_succ (Nat.lt_of_lt_of_le hb h))
            (Nat.le_of_lt_succ (Nat.lt_of_lt_of_le hb h')) page'
        have hshrinks := step_shrinks (fillWithin fuel') mood page block rest
        rw [fillWithin, fillWithin, step_congr hagree page]
        unfold stepsLeft at ih h h'
        exact ih (by omega) (by omega) _

/-- With more steps than the bound the blocks of a source are the same: all of them are added before
it is met. -/
theorem fillWithin_of_stepBound {fuel : Nat} {source : Text} (h : stepBound source ≤ fuel)
    (references : References) :
    fillWithin fuel none ⟨Element.bare "div", references⟩ (chunks source) =
      read references source := by
  have hbound : stepsLeft none (chunks source) ≤ stepBound source := by
    have hweight := weight_chunks_le source
    unfold stepsLeft stepBound
    split <;> omega
  exact fillWithin_congr (Nat.le_trans hbound h) hbound _

end Blocks

end Changelog
