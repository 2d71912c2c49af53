import Changelog.Proofs.Marks.Written

/-!
# Stashes that agree

What a page shows of the stash are the entries that the marks of its texts name.  Where all these
marks are numbered from some number on, and two stashes hold the same markup from there on, headings
get the same anchors and pages get the same markup back.
-/

namespace Changelog

open Text

/-! ### Numbers of marks -/

namespace Mark

/-- All marks of stored markup that can be read in a text are numbered from `least` on. -/
def Numbered (least : Nat) (cs : Text) : Prop :=
  ∀ part digits rest, part <:+ cs → readRaw? part = some (digits, rest) →
    ∃ n, least ≤ n ∧ digits = decimal n

theorem Written.numbered {least : Nat} {cs : Text} (h : Written least cs) : Numbered least cs :=
  fun _ _ _ hp hr => (Written.readRaw? (h.suffix hp) hr).1

theorem readRaw?_extend {cs digits rest : Text} (h : readRaw? cs = some (digits, rest))
    (behind : Text) : readRaw? (cs ++ behind) = some (digits, rest ++ behind) := by
  obtain ⟨hcs, hdigits⟩ := readWord?_eq h
  have hne : digits ≠ [] := by
    intro hnil
    rw [hcs, hnil] at h
    have hnone : readRaw? (opening :: (rawWord ++ ([] ++ closing :: rest))) = none := rfl
    rw [hnone] at h
    cases h
  rw [hcs, List.cons_append, List.append_assoc, List.append_assoc, List.cons_append, readRaw?,
    readWord?, if_pos rfl, (after?_eq_some_iff rawWord _ _).mpr rfl]
  exact readDigits?_closing hne hdigits (by decide) (rest ++ behind)

namespace Numbered

variable {least : Nat} {cs : Text}

theorem suffix {ds : Text} (h : Numbered least cs) (hs : ds <:+ cs) : Numbered least ds :=
  fun part digits rest hp hr => h part digits rest (hp.trans hs) hr

theorem cut {rest : Text} (h : Numbered least (cs ++ rest)) : Numbered least cs := by
  intro part digits left ⟨before, hp⟩ hr
  refine h (part ++ rest) digits (left ++ rest) ⟨before, ?_⟩ (readRaw?_extend hr rest)
  rw [← List.append_assoc, hp]

theorem trim (h : Numbered least cs) : Numbered least (trim cs) := by
  have hstart := h.suffix (List.dropWhile_suffix isSpace)
  obtain ⟨behind, hsplit, -⟩ := dropEndWhile_spec isSpace (trimStart cs)
  rw [show List.dropWhile isSpace cs = dropEndWhile isSpace (trimStart cs) ++ behind from hsplit]
    at hstart
  exact hstart.cut

end Numbered

end Mark

namespace Restore

/-- A mark that is read, maybe with the paragraph around it, is a mark in the text. -/
theorem readStored?_spec {cs digits rest : Text} {alone : Bool}
    (h : readStored? cs = some (alone, digits, rest)) :
    ∃ inner left, inner <:+ cs ∧ Mark.readRaw? inner = some (digits, left) ∧ rest <:+ left := by
  unfold readStored? at h
  rcases Option.or_eq_some_iff.mp h with h | ⟨-, h⟩
  · obtain ⟨r, hread, hclose⟩ := Option.bind_eq_some_iff.mp h
    obtain ⟨inner, hopen, hraw⟩ := Option.bind_eq_some_iff.mp hread
    obtain ⟨left, hleft, heq⟩ := Option.map_eq_some_iff.mp hclose
    cases heq
    exact ⟨inner, r.2, after?_suffix hopen, hraw, after?_suffix hleft⟩
  · obtain ⟨r, hraw, heq⟩ := Option.map_eq_some_iff.mp h
    cases heq
    exact ⟨cs, r.2, List.suffix_refl cs, hraw, List.suffix_refl r.2⟩

theorem recognise_suffix {stash : Stash} {depth : Nat} {cs value rest : Text}
    (h : recognise stash depth cs = some (value, rest)) : rest <:+ cs := by
  unfold recognise at h
  split at h
  · cases h
  · next alone digits left hread =>
    obtain ⟨inner, behind, hinner, hraw, hleft⟩ := readStored?_spec hread
    have hsuffix := (hleft.trans (Mark.readWord?_suffix hraw).1).trans hinner
    split at h
    · cases h
      exact hsuffix
    · cases h
      exact hsuffix

end Restore

/-! ### Stored markup looked up -/

/-- From `least` on, two stashes hold the same markup, and its marks are whole and numbered from
`least` on as well. -/
structure Stash.Agree (least : Nat) (s t : Stash) : Prop where
  same : ∀ n, least ≤ n → s.entries[n]? = t.entries[n]?
  written : ∀ n markup, least ≤ n → t.entries[n]? = some markup → Mark.Written least markup

section

variable {least : Nat} {s t : Stash}

theorem Restore.written_shown {markup : Text} (h : Mark.Written least markup) (alone : Bool) :
    Mark.Written least
      (if alone && !isBlockMarkup markup then "<p>".toList ++ markup ++ "</p>".toList
        else markup) := by
  split
  · have hopen : Mark.Written least "<p>".toList := Mark.each_of_not_mem (by decide)
    have hclose : Mark.Written least "</p>".toList := Mark.each_of_not_mem (by decide)
    exact (hopen.append h).append hclose
  · exact h

/-- Pages get the same markup back. -/
theorem Stash.Agree.within (h : Stash.Agree least s t) (depth : Nat) {cs : Text}
    (hc : Mark.Numbered least cs) : Restore.within s depth cs = Restore.within t depth cs := by
  induction depth generalizing cs with
  | zero => rfl
  | succ depth ih =>
    rw [Restore.within_succ, Restore.within_succ]
    refine replaceAll_congr (fun _ _ _ => Restore.recognise_suffix) fun part hp => ?_
    unfold Restore.recognise
    cases hr : Restore.readStored? part with
    | none => rfl
    | some r =>
      obtain ⟨alone, digits, rest⟩ := r
      obtain ⟨inner, left, hinner, hraw, -⟩ := Restore.readStored?_spec hr
      obtain ⟨n, hn, rfl⟩ := hc inner digits left (hinner.trans hp) hraw
      dsimp only
      rw [digitsValue_decimal, h.same n hn]
      cases hm : t.entries[n]? with
      | none => rfl
      | some markup =>
        have hshown := Restore.written_shown (h.written n markup hn hm) alone
        exact congrArg (fun shown => some (shown, rest)) (ih hshown.numbered)

/-- Where nothing is stored from `least` on, no markup is nested. -/
theorem Restore.within_of_none (hs : ∀ n, least ≤ n → s.entries[n]? = none) (depth depth' : Nat)
    {cs : Text} (hc : Mark.Numbered least cs) :
    Restore.within s (depth + 1) cs = Restore.within s (depth' + 1) cs := by
  rw [Restore.within_succ, Restore.within_succ]
  refine replaceAll_congr (fun _ _ _ => Restore.recognise_suffix) fun part hp => ?_
  unfold Restore.recognise
  cases hr : Restore.readStored? part with
  | none => rfl
  | some r =>
    obtain ⟨alone, digits, rest⟩ := r
    obtain ⟨inner, left, hinner, hraw, -⟩ := Restore.readStored?_spec hr
    obtain ⟨n, hn, rfl⟩ := hc inner digits left (hinner.trans hp) hraw
    dsimp only
    rw [digitsValue_decimal, hs n hn]

/-- Marks in a text show the same. -/
theorem Stash.Agree.resolveRaw (h : Stash.Agree least s t) {cs : Text}
    (hc : Mark.Numbered least cs) : Anchor.resolveRaw s cs = Anchor.resolveRaw t cs := by
  refine replaceAll?_congr ?_ fun part hp => ?_
  · intro part value rest hr
    obtain ⟨r, hraw, heq⟩ := Option.map_eq_some_iff.mp hr
    cases heq
    exact (Mark.readWord?_suffix hraw).1
  · cases hr : Mark.readRaw? part with
    | none => rfl
    | some r =>
      obtain ⟨n, hn, hdigits⟩ := hc part r.1 r.2 hp hr
      have hshows : Anchor.rawText s r.1 = Anchor.rawText t r.1 := by
        unfold Anchor.rawText
        rw [hdigits]
        unfold readDecimal
        split
        · rw [digitsValue_decimal, Except.map, Except.map, h.same n hn]
        · rfl
      rw [Option.map_some, Option.map_some, hshows]

/-! ### Decoration and writing -/

open Element

theorem Stash.Agree.restyled (h : Stash.Agree least s t) {e : Tree}
    (he : Graded (Grade.whole least) e) : restyled s e = restyled t e := by
  have htext : Anchor.textOf s e = Anchor.textOf t e := by
    have hinner : Mark.Whole least e.innerText := he.innerText
    unfold Anchor.textOf Anchor.visible
    rw [h.resolveRaw hinner.written.numbered]
  unfold Element.restyled
  rw [htext]

mutual

/-- A tree is decorated in the same way. -/
theorem Stash.Agree.decorateTree (h : Stash.Agree least s t) : ∀ {e : Tree},
    Graded (Grade.whole least) e → decorateTree s e = decorateTree t e
  | ⟨tag, attrs, text, tail, children⟩, he => by
    have hinside := Stash.Agree.decorateForest h children he.children
    unfold Element.decorateTree
    rw [h.restyled he, hinside]

theorem Stash.Agree.decorateForest (h : Stash.Agree least s t) : ∀ es : List Tree,
    (∀ e ∈ es, Graded (Grade.whole least) e) → decorateForest s es = decorateForest t es
  | [], _ => rfl
  | e :: es, hes => by
    obtain ⟨hown, hothers⟩ := List.forall_mem_cons.mp hes
    have hfirst := Stash.Agree.decorateTree h hown
    have hrest := Stash.Agree.decorateForest h es hothers
    unfold Element.decorateForest
    rw [hfirst, hrest]

end

/-- The marks in what is written inside a tree. -/
theorem Parser.numbered_writeInside {e : Tree} (h : Graded (Grade.whole least) e) :
    Mark.Numbered least (Parser.writeInside e) := by
  have htext : Mark.Whole least (e.text.getD []) := h.text
  have hchildren : Mark.Written least (Element.writeAll e.children) :=
    Graded.writeAll e.children h.children
  exact (htext.text.written.append hchildren).numbered.trim

end

end Changelog
