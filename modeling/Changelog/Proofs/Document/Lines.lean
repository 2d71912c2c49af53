import Changelog.Markdown.Line
import Changelog.Proofs.Document.Grade

/-!
# Lines of a grade

The lines that open blocks are cut where no mark is: at spaces, at line ends, before number signs and
before closing brackets.  The address and the title of a link target are parts of its line.
-/

namespace Changelog.Line

open Text

variable {g : Grade}

theorem skipSpaces_suffix (limit : Nat) (cs : Text) : skipSpaces limit cs <:+ cs := by
  fun_induction skipSpaces limit cs with
  | case1 limit cs ih => exact ih.trans (List.suffix_cons _ _)
  | case2 => exact List.suffix_refl _

theorem skipAllSpaces_suffix (cs : Text) : skipAllSpaces cs <:+ cs :=
  List.dropWhile_suffix _

theorem isInner_of_eq_space {c : Char} (h : (c == ' ') = true) : Mark.isInner c = false := by
  rw [eq_of_beq h]
  decide

theorem isInner_of_eq_break {c : Char} (h : (c == '\n') = true) : Mark.isInner c = false := by
  rw [eq_of_beq h]
  decide

theorem running_trimSpaces {cs : Text} (h : g.running cs) : g.running (trimSpaces cs) :=
  Grade.dropEndWhile (g.suffix h (skipAllSpaces_suffix cs)) fun _ => isInner_of_eq_space

theorem dedent?_suffix {width : Nat} {cs inner : Text} (h : dedent? width cs = some inner) :
    inner <:+ cs :=
  after?_suffix h

theorem running_dedent {width : Nat} {cs : Text} (h : g.running cs) :
    g.running ((dedent? width cs).getD cs) := by
  cases hd : dedent? width cs with
  | none => exact h
  | some inner => exact g.suffix h (dedent?_suffix hd)

theorem running_splitIndented {pieces : List Text} (h : ∀ line ∈ pieces, g.running line) :
    (∀ line ∈ (splitIndented pieces).1, g.running line) ∧
      ∀ line ∈ (splitIndented pieces).2, g.running line := by
  induction pieces with
  | nil => exact ⟨List.forall_mem_nil _, List.forall_mem_nil _⟩
  | cons line pieces ih =>
    obtain ⟨hline, hothers⟩ := List.forall_mem_cons.mp h
    obtain ⟨hinner, houter⟩ := ih hothers
    unfold splitIndented
    split
    · next inner hd =>
      exact ⟨List.forall_mem_cons.mpr ⟨g.suffix hline (dedent?_suffix hd), hinner⟩, houter⟩
    · split
      · exact ⟨List.forall_mem_cons.mpr ⟨Grade.empty, hinner⟩, houter⟩
      · exact ⟨List.forall_mem_nil _, h⟩

theorem running_detab {cs : Text} (h : g.running cs) :
    g.running (detab cs).1 ∧ g.running (detab cs).2 :=
  (running_splitIndented (Grade.lines h)).imp Grade.ofLines Grade.ofLines

theorem running_dedentLines (steps : Nat) {cs : Text} (h : g.running cs) :
    g.running (dedentLines steps cs) := by
  refine Grade.ofLines ?_
  intro line hline
  obtain ⟨old, hold, rfl⟩ := List.mem_map.mp hline
  exact running_dedent (Grade.lines h old hold)

/-! ### Headings -/

theorem countRun_suffix (mark : Char) (limit : Nat) (cs : Text) :
    (countRun mark limit cs).2 <:+ cs := by
  fun_induction countRun mark limit cs with
  | case1 => exact List.nil_suffix
  | case2 => exact List.suffix_refl _
  | case3 => next ih => exact ih.trans (List.suffix_cons _ _)
  | case4 => exact List.suffix_refl _

theorem head_of_dropWhile {c : Char} {cs rest : Text}
    (h : (c :: cs).dropWhile (· == '#') = rest) (hr : ∀ d ∈ rest.head?, d = '\n') :
    c = '#' ∨ c = '\n' := by
  by_cases hc : c = '#'
  · exact Or.inl hc
  · rw [List.dropWhile_cons_of_neg (by simpa using hc)] at h
    subst h
    exact Or.inr (hr c rfl)

/-- The text of a heading ends at the end of its block, at a line end or at a number sign. -/
theorem headingTail?_spec {cs front rest : Text} (h : headingTail? cs = some (front, rest)) :
    (∃ behind, cs = front ++ behind ∧ ∀ c ∈ behind.head?, c = '#' ∨ c = '\n') ∧ rest <:+ cs := by
  fun_induction headingTail? cs generalizing front rest with
  | case1 =>
    cases h
    exact ⟨⟨[], rfl, fun c hc => nomatch hc⟩, List.suffix_refl _⟩
  | case2 c cs hd =>
    cases h
    refine ⟨⟨c :: cs, rfl, fun d hm => ?_⟩, List.nil_suffix⟩
    cases hm
    exact head_of_dropWhile hd fun d hd => nomatch hd
  | case3 c cs left hd =>
    cases h
    refine ⟨⟨c :: cs, rfl, fun d hm => ?_⟩, ?_⟩
    · cases hm
      exact head_of_dropWhile hd fun d hd => (Option.some.inj hd).symm
    · have hs := List.dropWhile_suffix (· == '#') (l := c :: cs)
      rw [hd] at hs
      exact (List.suffix_cons _ _).trans hs
  | case4 => cases h
  | case5 => cases h
  | case6 => next ih =>
    obtain ⟨⟨inside, left⟩, hr, heq⟩ := Option.map_eq_some_iff.mp h
    cases heq
    obtain ⟨⟨behind, hcs, hhead⟩, hs⟩ := ih hr
    rw [hcs] at hs ⊢
    exact ⟨⟨behind, rfl, hhead⟩, hs.trans ⟨[_, _], rfl⟩⟩
  | case7 => next ih =>
    obtain ⟨⟨inside, left⟩, hr, heq⟩ := Option.map_eq_some_iff.mp h
    cases heq
    obtain ⟨⟨behind, hcs, hhead⟩, hs⟩ := ih hr
    rw [hcs] at hs ⊢
    exact ⟨⟨behind, rfl, hhead⟩, hs.trans (List.suffix_cons _ _)⟩

theorem running_readHeading? {cs : Text} {level : Nat} {header after : Text}
    (hr : readHeading? cs = some (level, header, after)) (h : g.running cs) :
    g.running header ∧ g.running after := by
  unfold readHeading? at hr
  split at hr
  · cases hr
  · next level rest _ hc =>
    obtain ⟨⟨front, behind⟩, htail, heq⟩ := Option.map_eq_some_iff.mp hr
    cases heq
    obtain ⟨⟨left, hrest, hleft⟩, hsuffix⟩ := headingTail?_spec htail
    have hrun : g.running rest := by
      have hs := countRun_suffix '#' 6 cs
      rw [hc] at hs
      exact g.suffix h hs
    refine ⟨?_, g.suffix hrun hsuffix⟩
    rw [hrest] at hrun
    refine g.cut hrun fun c hm => ?_
    rcases hleft c hm with rfl | rfl <;> decide

/-! ### Lines found -/

theorem findLine?_spec {α : Type} {read : Text → Option α} {cs : Text} {found : Found α}
    (h : findLine? read cs = some found) :
    ∃ rest, read rest = some found.value ∧
      (found.first = true ∧ found.before = [] ∧ rest = cs ∨
        found.first = false ∧ cs = found.before ++ '\n' :: rest) := by
  have hgo {cs : Text} {found : Found α} (h : findLine?.go read cs = some found) :
      ∃ rest, read rest = some found.value ∧ found.first = false ∧
        cs = found.before ++ '\n' :: rest := by
    induction cs generalizing found with
    | nil => cases h
    | cons c cs ih =>
      have hlater {found : Found α}
          (h : (findLine?.go read cs).map (fun f => { f with before := c :: f.before }) =
            some found) : ∃ rest, read rest = some found.value ∧ found.first = false ∧
              c :: cs = found.before ++ '\n' :: rest := by
        obtain ⟨f, hf, rfl⟩ := Option.map_eq_some_iff.mp h
        obtain ⟨rest, hread, hfirst, hcs⟩ := ih hf
        exact ⟨rest, hread, hfirst, congrArg (c :: ·) hcs⟩
      unfold findLine?.go at h
      split at h
      · next hc =>
        split at h
        · next value hread =>
          cases h
          exact ⟨cs, hread, rfl, congrArg (· :: cs) hc⟩
        · exact hlater h
      · exact hlater h
  unfold findLine? at h
  split at h
  · next value hread =>
    cases h
    exact ⟨cs, hread, Or.inl ⟨rfl, rfl, rfl⟩⟩
  · obtain ⟨rest, hread, hcs⟩ := hgo h
    exact ⟨rest, hread, Or.inr hcs⟩

/-- What stands before a line that was found, and the line with what follows it. -/
theorem running_found {α : Type} {read : Text → Option α} {cs : Text} {found : Found α}
    (hf : findLine? read cs = some found) (h : g.running cs) :
    g.running found.before ∧ ∃ rest, read rest = some found.value ∧ g.running rest := by
  obtain ⟨rest, hread, ⟨-, hbefore, rfl⟩ | ⟨-, hcs⟩⟩ := findLine?_spec hf
  · rw [hbefore]
    exact ⟨Grade.empty, rest, hread, h⟩
  · rw [hcs] at h
    refine ⟨Grade.cutBefore h (by decide), rest, hread, g.suffix h ⟨found.before ++ ['\n'], ?_⟩⟩
    rw [List.append_assoc, List.singleton_append]

theorem splitAtRule?_subset {pieces before after : List Text}
    (h : splitAtRule? pieces = some (before, after)) : before ⊆ pieces ∧ after ⊆ pieces := by
  induction pieces generalizing before with
  | nil => cases h
  | cons line pieces ih =>
    unfold splitAtRule? at h
    split at h
    · cases h
      exact ⟨List.nil_subset _, List.subset_cons_self _ _⟩
    · obtain ⟨r, hr, heq⟩ := Option.map_eq_some_iff.mp h
      cases heq
      obtain ⟨hbefore, hafter⟩ := ih hr
      exact ⟨List.cons_subset_cons line hbefore, fun l hl => List.mem_cons_of_mem line (hafter hl)⟩

/-! ### Items and quotes -/

theorem readOrdinal?_suffix {cs rest : Text} (h : readOrdinal? cs = some rest) : rest <:+ cs := by
  unfold readOrdinal? at h
  split at h
  · next d ds left hs =>
    cases h
    obtain ⟨rfl, -, -⟩ := spanWhile_spec hs
    exact (List.suffix_cons _ _).trans (List.suffix_append _ _)
  · cases h

theorem readBullet?_suffix {cs rest : Text} (h : readBullet? cs = some rest) : rest <:+ cs := by
  unfold readBullet? at h
  split at h
  · split at h
    · cases h
      exact List.suffix_cons _ _
    · cases h
  · cases h

theorem readItemText?_suffix {cs rest : Text} (h : readItemText? cs = some rest) :
    rest <:+ cs := by
  unfold readItemText? at h
  split at h
  · cases h
    exact (skipAllSpaces_suffix _).trans (List.suffix_cons _ _)
  · cases h

theorem readItem?_suffix {line rest : Text} (h : readItem? line = some rest) : rest <:+ line := by
  rcases Option.or_eq_some_iff.mp h with h | ⟨-, h⟩
  · obtain ⟨left, hleft, hrest⟩ := Option.bind_eq_some_iff.mp h
    exact (readItemText?_suffix hrest).trans
      ((readOrdinal?_suffix hleft).trans (skipSpaces_suffix 3 line))
  · obtain ⟨left, hleft, hrest⟩ := Option.bind_eq_some_iff.mp h
    exact (readItemText?_suffix hrest).trans
      ((readBullet?_suffix hleft).trans (skipSpaces_suffix 3 line))

theorem readQuote?_suffix {cs rest : Text} (h : readQuote? cs = some rest) : rest <:+ cs := by
  have hskip := skipSpaces_suffix 3 cs
  unfold readQuote? at h
  split at h
  · next left hs =>
    cases h
    rw [hs] at hskip
    exact ((List.suffix_cons _ _).trans (List.suffix_cons _ _)).trans hskip
  · next left _ hs =>
    cases h
    rw [hs] at hskip
    exact (List.suffix_cons _ _).trans hskip
  · cases h

theorem running_unquote {line : Text} (h : g.running line) : g.running (unquote line) := by
  unfold unquote
  split
  · exact Grade.empty
  · cases hq : readQuote? line with
    | none => exact h
    | some rest => exact g.suffix h (readQuote?_suffix hq)

/-! ### Link targets -/

theorem prefix_dropEndWhile (p : Char → Bool) (cs : Text) : dropEndWhile p cs <+: cs := by
  obtain ⟨behind, hcs, -⟩ := dropEndWhile_spec p cs
  exact ⟨behind, hcs.symm⟩

theorem readTitle?_spec {cs title rest : Text} (h : readTitle? cs = some (title, rest)) :
    title <:+: cs ∧ rest <:+ cs := by
  unfold readTitle? at h
  split at h
  · next c cs =>
    dsimp only at h
    split at h
    · cases h
    · split at h
      · next close _ d inside hs =>
        split at h
        · cases h
          have hline : cs.takeWhile (· != '\n') <+: cs := List.takeWhile_prefix _
          have htitle : inside.reverse <+: dropEndWhile (· == ' ') (cs.takeWhile (· != '\n')) := by
            refine ⟨[d], ?_⟩
            rw [← List.reverse_reverse (dropEndWhile _ _), hs, List.reverse_cons]
          refine ⟨?_, (List.drop_suffix _ _).trans (List.suffix_cons c cs)⟩
          exact ((htitle.trans (prefix_dropEndWhile _ _)).trans hline).isInfix.trans
            (List.suffix_cons c cs).isInfix
        · cases h
      · cases h
  · cases h

theorem readLineEnd?_suffix {cs rest : Text} (h : readLineEnd? cs = some rest) : rest <:+ cs := by
  have hskip := skipAllSpaces_suffix cs
  unfold readLineEnd? at h
  split at h
  · cases h
    exact List.nil_suffix
  · next left hs =>
    cases h
    exact hs ▸ hskip
  · cases h

theorem readAfterAddress?_spec {cs rest : Text} {title : Option Text}
    (h : readAfterAddress? cs = some (title, rest)) :
    (∀ t ∈ title, t <:+: cs) ∧ rest <:+ cs := by
  have hskip := skipAllSpaces_suffix cs
  have hnone (t : Text) (ht : t ∈ (none : Option Text)) : t <:+: cs := nomatch ht
  have htitled {start t left : Text} (hs : start <:+ cs) (hr : readTitle? start = some (t, left)) :
      (∀ u ∈ some t, u <:+: cs) ∧ left <:+ cs := by
    obtain ⟨htitle, hleft⟩ := readTitle?_spec hr
    refine ⟨fun u hu => ?_, hleft.trans hs⟩
    cases hu
    exact htitle.trans hs.isInfix
  unfold readAfterAddress? at h
  dsimp only at h
  split at h
  · next r hbelow =>
    cases h
    split at hbelow
    · next below hs =>
      rw [hs] at hskip
      have hnext : skipAllSpaces below <:+ cs :=
        ((skipAllSpaces_suffix below).trans (List.suffix_cons _ _)).trans hskip
      split at hbelow
      · next t left hr =>
        cases hbelow
        exact htitled hnext hr
      · obtain ⟨left, hleft, heq⟩ := Option.map_eq_some_iff.mp hbelow
        cases heq
        exact ⟨hnone, (readLineEnd?_suffix hleft).trans hnext⟩
    · cases hbelow
  · split at h
    · next t left hr =>
      cases h
      exact htitled hskip hr
    · split at h
      · cases h
        exact ⟨hnone, List.nil_suffix⟩
      · next left hs =>
        cases h
        exact ⟨hnone, hs ▸ hskip⟩
      · cases h

theorem readAddress?_spec {fuel : Nat} {taken rest address left : Text} {title : Option Text}
    (h : readAddress? fuel taken rest = some (address, title, left)) :
    address <+: taken.reverse ++ rest ∧ (∀ t ∈ title, t <:+: taken.reverse ++ rest) ∧
      left <:+ taken.reverse ++ rest := by
  induction fuel generalizing taken rest with
  | zero =>
    cases taken with
    | nil => cases h
    | cons c taken => cases h
  | succ fuel ih =>
    cases taken with
    | nil => cases h
    | cons c taken =>
      unfold readAddress? at h
      split at h
      · next t l hr =>
        cases h
        obtain ⟨htitle, hleft⟩ := readAfterAddress?_spec hr
        have hs := List.suffix_append (c :: taken).reverse rest
        exact ⟨List.prefix_append _ _, fun u hu => (htitle u hu).trans hs.isInfix, hleft.trans hs⟩
      · have hback := ih h
        have hsame : taken.reverse ++ c :: rest = (c :: taken).reverse ++ rest := by
          rw [List.reverse_cons, List.append_assoc, List.singleton_append]
        rwa [hsame] at hback

theorem infix_trimAngles (cs : Text) : trimAngles cs <:+: cs :=
  (prefix_dropEndWhile _ _).isInfix.trans (List.dropWhile_suffix _).isInfix

/-- The parts of a link target are parts of the text it is read from. -/
theorem readTarget?_spec {cs : Text} {target : Target} (h : readTarget? cs = some target) :
    target.address <:+: cs ∧ (∀ t ∈ target.title, t <:+: cs) ∧ target.rest <:+ cs ∧
      target.rest.length < cs.length := by
  have hskip := skipSpaces_suffix 3 cs
  unfold readTarget? at h
  split at h
  · next inner hs =>
    rw [hs] at hskip
    split at h
    · next name rest hname =>
      obtain ⟨hinner, -, -⟩ := spanWhile_spec hname
      extract_lets gap start run at h
      have hopened : '[' :: (name ++ ']' :: ':' :: rest) <:+ cs := hinner ▸ hskip
      have hrest : rest <:+ cs :=
        .trans ⟨'[' :: (name ++ [']', ':']), by simp⟩ hopened
      have hstart : start <:+ rest := by
        have hgap : gap <:+ rest := skipAllSpaces_suffix rest
        unfold start
        clear_value gap
        split
        · next below =>
          exact ((skipAllSpaces_suffix below).trans (List.suffix_cons _ _)).trans hgap
        · exact hgap
      split at h
      · next address title left hr =>
        cases h
        have hspec := readAddress?_spec hr
        rw [List.reverse_reverse, spanWhile_append] at hspec
        obtain ⟨haddress, htitle, hleft⟩ := hspec
        have hsuffix := hstart.trans hrest
        refine ⟨?_, fun t ht => ?_, hleft.trans hsuffix, ?_⟩
        · exact (infix_trimAngles address).trans (haddress.isInfix.trans hsuffix.isInfix)
        · have hm := (Option.mem_filter_iff.mp ht).1
          exact (htitle t hm).trans hsuffix.isInfix
        · have hlong := hopened.length_le
          have hshort := (hleft.trans hstart).length_le
          simp only [List.length_cons, List.length_append] at hlong
          show left.length < cs.length
          omega
      · cases h
    · cases h
  · cases h

end Changelog.Line
