import Changelog.Proofs.Anchors.Headings
import Changelog.Proofs.Anchors.Shown

/-!
# Headings on the page

The inside of a heading stands on the page as it would stand there alone.  Nothing that is put back
in a page reaches over a quotation mark, or over the start of the end tag of a heading.
-/

namespace Changelog

open Text Element

/-! ### Places that separate a page -/

/-- A text whose first character stays, and which continues no mark and no paragraph around one. -/
structure Border (c : Char) (rest : Text) : Prop where
  stays : Restore.readStored? (c :: rest) = none
  plain : c ∉ Mark.ampersand
  digit : isAsciiDigit c = false
  word : Apart Mark.rawWord (c :: rest)
  start : Apart "<p>".toList (c :: rest)
  stop : Apart "</p>".toList (c :: rest)

theorem border_quote (rest : Text) : Border '"' rest :=
  ⟨Restore.readStored?_of_readRaw? _ (Mark.readRaw?_of_ne _ (by decide)) nofun, by decide,
    by decide, apart_of_not_mem _ (by decide), apart_of_not_mem _ (by decide),
    apart_of_not_mem _ (by decide)⟩

theorem border_end (rest : Text) : Border '<' ('/' :: 'h' :: rest) := by
  refine ⟨Restore.readStored?_of_readRaw? _ (Mark.readRaw?_of_ne _ (by decide)) nofun, by decide,
    by decide, apart_of_not_mem _ (by decide), ?_, ?_⟩
  · exact apart_cons rfl (apart_of_not_mem _ (by decide))
  · exact apart_cons rfl (apart_of_not_mem _ (by decide))

namespace Mark

theorem spanWhile_append_of_not {p : Char → Bool} {c : Char} (hc : p c = false) (cs rest : Text) :
    spanWhile p (cs ++ c :: rest) = ((spanWhile p cs).1, (spanWhile p cs).2 ++ c :: rest) := by
  induction cs with
  | nil => rw [List.nil_append, spanWhile, spanWhile, hc]; rfl
  | cons d cs ih =>
    rw [List.cons_append, spanWhile, spanWhile]
    split
    · rw [ih]
    · rfl

theorem readDigits?_append {isDigit : Char → Bool} {c : Char} (hd : isDigit c = false)
    (hc : c ≠ closing) (cs rest : Text) :
    readDigits? isDigit (cs ++ c :: rest) =
      (readDigits? isDigit cs).map fun r => (r.1, r.2 ++ c :: rest) := by
  unfold readDigits?
  rw [spanWhile_append_of_not hd]
  generalize spanWhile isDigit cs = span
  obtain ⟨front, left⟩ := span
  cases front with
  | nil => rfl
  | cons d ds =>
    cases left with
    | nil => exact if_neg hc
    | cons e left =>
      dsimp only [List.cons_append]
      split
      · rfl
      · rfl

/-- A mark of stored markup ends before a border. -/
theorem readRaw?_append {c : Char} {rest : Text} (h : Border c rest) (cs : Text) :
    readRaw? (cs ++ c :: rest) = (readRaw? cs).map fun r => (r.1, r.2 ++ c :: rest) := by
  have hopening : c ≠ opening := by
    intro hc
    exact h.plain (hc ▸ by decide)
  have hclosing : c ≠ closing := by
    intro hc
    exact h.plain (hc ▸ by decide)
  cases cs with
  | nil => exact readRaw?_of_ne rest hopening
  | cons d cs =>
    unfold readRaw? readWord?
    rw [List.cons_append]
    dsimp only
    split
    · rw [after?_append h.word, Option.bind_map, Option.map_bind]
      congr 1
      funext left
      exact readDigits?_append h.digit hclosing left rest
    · rfl

end Mark

namespace Restore

variable {stash : Stash}

/-- What is put back in a page ends before a border. -/
theorem readStored?_append {c : Char} {rest : Text} (h : Border c rest) (cs : Text) :
    readStored? (cs ++ c :: rest) =
      (readStored? cs).map fun r => (r.1, r.2.1, r.2.2 ++ c :: rest) := by
  unfold readStored?
  rw [Mark.readRaw?_append h cs, after?_append h.start cs]
  cases after? "<p>".toList cs with
  | none =>
    cases Mark.readRaw? cs with
    | none => rfl
    | some r => rfl
  | some inner =>
    simp only [Option.map_some, Option.bind_some]
    rw [Mark.readRaw?_append h inner]
    cases Mark.readRaw? inner with
    | none =>
      cases Mark.readRaw? cs with
      | none => rfl
      | some r => rfl
    | some r =>
      simp only [Option.map_some, Option.bind_some]
      rw [after?_append h.stop r.2]
      cases after? "</p>".toList r.2 with
      | none =>
        cases Mark.readRaw? cs with
        | none => rfl
        | some r => rfl
      | some left => rfl

theorem recognise_append {c : Char} {rest : Text} (h : Border c rest) (depth : Nat) (cs : Text) :
    recognise stash depth (cs ++ c :: rest) =
      (recognise stash depth cs).map fun r => (r.1, r.2 ++ c :: rest) := by
  unfold recognise
  rw [readStored?_append h cs]
  cases hr : readStored? cs with
  | none => rfl
  | some r =>
    obtain ⟨alone, digits, left⟩ := r
    have hlt := readStored?_lt hr
    dsimp only [Option.map_some]
    cases stash.entries[digitsValue digits]? with
    | none =>
      have hlen : (cs ++ c :: rest).length - (left ++ c :: rest).length =
          cs.length - left.length := by
        rw [List.length_append, List.length_append]
        omega
      dsimp only [Option.map_some]
      rw [hlen, List.take_append_of_le_length (Nat.sub_le _ _)]
    | some markup => rfl

/-- A text that begins no tag and no mark stays. -/
theorem page_plain (front rest : Text) (ho : Mark.opening ∉ front) (hl : '<' ∉ front) :
    page stash (front ++ rest) = front ++ page stash rest := by
  unfold page
  rw [within_append _ front rest (Mark.onlyAmpersands_of_not_mem ho) hl]
  exact ampersands_append front _ ho

/-- A page is put back on the two sides of a border. -/
theorem page_append {c : Char} {rest : Text} (h : Border c rest) (front : Text) :
    page stash (front ++ c :: rest) = page stash front ++ c :: page stash rest := by
  have hkeep : within stash (stash.entries.length + 1) (c :: rest) =
      c :: within stash (stash.entries.length + 1) rest := by
    rw [within_succ, within_succ]
    exact replaceAll_keep c rest (recognise_none h.stays)
  have hwithin : within stash (stash.entries.length + 1) (front ++ c :: rest) =
      within stash (stash.entries.length + 1) front ++
        within stash (stash.entries.length + 1) (c :: rest) := by
    rw [within_succ]
    exact replaceAll_split (reads_recognise _) _ (fun cs _ => recognise_append h _ cs) front
  unfold page
  rw [hwithin, hkeep]
  exact ampersands_cons _ _ _ h.plain

end Restore

/-! ### White space at the ends -/

namespace Text

theorem trimStart_append {c : Char} (hc : isSpace c = false) (cs rest : Text) :
    trimStart (cs ++ c :: rest) = trimStart cs ++ c :: rest := by
  unfold trimStart
  induction cs with
  | nil =>
    rw [List.nil_append, List.dropWhile_cons_of_neg (by rw [hc]; decide)]
    rfl
  | cons d cs ih =>
    rw [List.cons_append, List.dropWhile_cons, List.dropWhile_cons, ih]
    split
    · rfl
    · rfl

theorem trimEnd_append {c : Char} (hc : isSpace c = false) (cs rest : Text) :
    trimEnd (cs ++ c :: rest) = cs ++ c :: trimEnd rest := by
  have hstart := trimStart_append hc rest.reverse cs.reverse
  unfold trimStart at hstart
  unfold trimEnd dropEndWhile
  rw [List.reverse_append, List.reverse_cons, List.append_assoc, List.singleton_append, hstart,
    List.reverse_append, List.reverse_cons, List.reverse_reverse, List.append_assoc,
    List.singleton_append]

end Text

/-! ### Headings in pages -/

/-- Whether a heading of the second level with the given inside stands in a page. -/
def HeadingIn (page inside : Text) : Prop :=
  ∃ before after, page = before ++ '"' :: '>' :: (inside ++ '<' :: '/' :: 'h' :: '2' :: '>' :: after)

namespace HeadingIn

variable {page inside : Text}

theorem within (h : HeadingIn page inside) (front back : Text) :
    HeadingIn (front ++ (page ++ back)) inside := by
  obtain ⟨before, after, rfl⟩ := h
  refine ⟨front ++ before, after ++ back, ?_⟩
  simp only [List.append_assoc, List.cons_append]

theorem trim (h : HeadingIn page inside) : HeadingIn (Text.trim page) inside := by
  obtain ⟨before, after, rfl⟩ := h
  refine ⟨trimStart before, trimEnd after, ?_⟩
  have hquote : isSpace '"' = false := by decide
  have hclose : isSpace '>' = false := by decide
  have hsplit : '"' :: '>' :: (inside ++ '<' :: '/' :: 'h' :: '2' :: '>' :: after) =
      ('"' :: '>' :: (inside ++ "</h2".toList)) ++ '>' :: after := by
    rw [List.cons_append, List.cons_append, List.append_assoc]
    rfl
  rw [Text.trim, trimStart_append hquote, hsplit, ← List.append_assoc, trimEnd_append hclose,
    List.append_assoc, List.cons_append, List.cons_append, List.append_assoc]
  rfl

/-- What is put back in a page is put back inside a heading. -/
theorem restored (stash : Stash) (h : HeadingIn page inside) :
    HeadingIn (Restore.page stash page) (Restore.page stash inside) := by
  obtain ⟨before, after, rfl⟩ := h
  refine ⟨Restore.page stash before, Restore.page stash after, ?_⟩
  have hclose (rest : Text) : Restore.page stash ('>' :: rest) = '>' :: Restore.page stash rest :=
    Restore.page_plain ['>'] rest (by decide) (by decide)
  have hend : Restore.page stash ('/' :: 'h' :: '2' :: '>' :: after) =
      '/' :: 'h' :: '2' :: '>' :: Restore.page stash after :=
    Restore.page_plain "/h2>".toList after (by decide) (by decide)
  rw [Restore.page_append (border_quote _), hclose, Restore.page_append (border_end _), hend]

end HeadingIn

/-! ### Headings in written trees -/

/-- Whether no element above an address is written as one tag. -/
def IsWritten : Tree → Address → Prop
  | _, [] => True
  | e, i :: a => emptyTags.contains (String.ofList (lowerAscii e.tag.toList)) = false ∧
      ∀ c, e.children[i]? = some c → IsWritten c a

theorem writeAttrs_quote (attrs : List (String × Text)) (h : attrs ≠ []) :
    ∃ front, writeAttrs attrs = front ++ ['"'] := by
  have hsorted : sortedAttrs attrs ≠ [] := by
    cases attrs with
    | nil => exact absurd rfl h
    | cons a attrs =>
      unfold sortedAttrs
      rw [List.foldr_cons]
      generalize attrs.foldr insertAttr [] = sorted
      cases sorted with
      | nil => exact List.cons_ne_nil _ _
      | cons b sorted =>
        unfold insertAttr
        split
        · exact List.cons_ne_nil _ _
        · exact List.cons_ne_nil _ _
  rcases List.eq_nil_or_concat (sortedAttrs attrs) with hnil | ⟨init, last, hlast⟩
  · exact absurd hnil hsorted
  · refine ⟨init.flatMap (fun a => ' ' :: (a.1.toList ++ '=' :: '"' :: (Escape.value a.2 ++ ['"'])))
      ++ ' ' :: (last.1.toList ++ '=' :: '"' :: Escape.value last.2), ?_⟩
    simp only [writeAttrs, hlast, List.concat_eq_append, List.flatMap_append,
      List.flatMap_singleton, List.append_assoc, List.cons_append]

theorem headingIn_write (e : Tree) (htag : e.tag = "h2") (hattrs : e.attrs ≠ []) :
    HeadingIn e.write (Escape.text (e.text.getD []) ++ writeAll e.children) := by
  obtain ⟨tag, attrs, text, tail, children⟩ := e
  dsimp only at htag hattrs
  subst htag
  obtain ⟨front, hfront⟩ := writeAttrs_quote attrs hattrs
  have hempty : emptyTags.contains (String.ofList (lowerAscii "h2".toList)) = false := by decide
  have hscript : scriptTags.contains (String.ofList (lowerAscii "h2".toList)) = false := by decide
  refine ⟨"<h2".toList ++ front, Escape.text (tail.getD []), ?_⟩
  simp only [Element.write, hfront, hempty, hscript, Bool.false_eq_true, if_false,
    List.append_assoc, List.cons_append, List.nil_append]
  rfl

/-- What stands in the children of an element stands in the element. -/
theorem headingIn_parent {e : Tree} {inside : Text}
    (hopen : emptyTags.contains (String.ofList (lowerAscii e.tag.toList)) = false)
    (h : HeadingIn (writeAll e.children) inside) : HeadingIn e.write inside := by
  obtain ⟨tag, attrs, text, tail, children⟩ := e
  dsimp only at hopen h
  simp only [Element.write, hopen, Bool.false_eq_true, if_false]
  generalize (if scriptTags.contains (String.ofList (lowerAscii tag.toList)) = true then
    text.getD [] else Escape.text (text.getD [])) = shown
  have hwithin := h.within ('<' :: (tag.toList ++ writeAttrs attrs) ++ '>' :: shown)
    ('<' :: '/' :: (tag.toList ++ '>' :: Escape.text (tail.getD [])))
  simpa only [List.append_assoc, List.cons_append] using hwithin

theorem headingIn_writeAll {es : List Tree} {e : Tree} {inside : Text} {i : Nat}
    (hi : es[i]? = some e) (h : HeadingIn e.write inside) : HeadingIn (writeAll es) inside := by
  induction es generalizing i with
  | nil => cases hi
  | cons f es ih =>
    cases i with
    | zero =>
      cases Option.some.inj hi
      exact h.within [] (writeAll es)
    | succ i =>
      have hrest := (ih hi).within f.write []
      rw [List.append_nil] at hrest
      exact hrest

/-- A heading below an element stands in the children of the element. -/
theorem headingIn_children (e x : Tree) (i : Nat) (a : Address) (hx : e.at? (i :: a) = some x)
    (hopen : IsWritten e (i :: a)) (htag : x.tag = "h2") (hattrs : x.attrs ≠ []) :
    HeadingIn (writeAll e.children) (Escape.text (x.text.getD []) ++ writeAll x.children) := by
  induction a generalizing e i with
  | nil =>
    rw [at?_cons] at hx
    obtain ⟨c, hc, hcx⟩ := Option.bind_eq_some_iff.mp hx
    cases Option.some.inj hcx
    exact headingIn_writeAll hc (headingIn_write x htag hattrs)
  | cons j a ih =>
    rw [at?_cons] at hx
    obtain ⟨c, hc, hcx⟩ := Option.bind_eq_some_iff.mp hx
    have hbelow := hopen.2 c hc
    exact headingIn_writeAll hc (headingIn_parent hbelow.1 (ih c j hcx hbelow))

namespace Parser

/-- On the written page a heading of the second level has the inside that it has alone. -/
theorem headingIn_written (h : Handed) (e : Tree) (i : Nat) (a : Address)
    (he : h.tree.at? (i :: a) = some e) (hopen : IsWritten h.tree (i :: a)) (htag : e.tag = "h2")
    (hattrs : e.attrs ≠ []) : HeadingIn h.written (insideOf h.stash e) := by
  have hchildren := headingIn_children h.tree e i a he hopen htag hattrs
  have htree := hchildren.within (Escape.text (h.tree.text.getD [])) []
  rw [List.append_nil] at htree
  exact (htree.trim.restored h.stash).trim

end Parser

end Changelog
