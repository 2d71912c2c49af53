import Changelog.Proofs.Anchors.Tokens

/-!
# Tokens on the page

The writer escapes the characters of a text, stored markup is put back where its marks stand, and a
reader skips what is markup.  Each of these stages again goes through tokens one after the other,
so the reader is left with the escaped characters and with what stored markup shows.
-/

namespace Changelog

open Text

/-! ### Escaping -/

namespace Escape

/-- A character of a text as it is written in front of others. -/
def image (c : Char) (rest : Text) : Text :=
  if c = '&' then if closesReference rest then ['&'] else "&amp;".toList
  else if c = '<' then "&lt;".toList
  else if c = '>' then "&gt;".toList
  else [c]

theorem text_cons (c : Char) (cs : Text) : text (c :: cs) = image c cs ++ text cs := by
  simp only [text, characters, image, Bool.false_eq_true, and_false, if_false]

theorem image_of_ne {c : Char} (rest : Text) (ha : c ≠ '&') (hl : c ≠ '<') (hg : c ≠ '>') :
    image c rest = [c] := by
  rw [image, if_neg ha, if_neg hl, if_neg hg]

theorem text_append (front rest : Text) (ha : '&' ∉ front) (hl : '<' ∉ front) (hg : '>' ∉ front) :
    text (front ++ rest) = front ++ text rest := by
  induction front with
  | nil => rfl
  | cons c front ih =>
    rw [List.mem_cons, not_or] at ha hl hg
    rw [List.cons_append, text_cons, image_of_ne _ (Ne.symm ha.1) (Ne.symm hl.1) (Ne.symm hg.1),
      ih ha.2 hl.2 hg.2]
    rfl

theorem not_mem_image {c d : Char} (rest : Text) (hd : d ∉ "&amp;&lt;&gt;".toList)
    (hc : d = c → c = '<') : d ∉ image c rest := by
  have hsub {part : Text} (hp : part ⊆ "&amp;&lt;&gt;".toList) : d ∉ part := fun hm => hd (hp hm)
  unfold image
  split
  · split
    · exact hsub (by decide)
    · exact hsub (by decide)
  split
  · exact hsub (by decide)
  split
  · exact hsub (by decide)
  · next hl _ =>
    intro hm
    exact hl (hc (List.mem_singleton.mp hm))

theorem bracket_not_mem_image (c : Char) (rest : Text) : '<' ∉ image c rest :=
  not_mem_image rest (by decide) Eq.symm

theorem opening_not_mem_image {c : Char} (rest : Text) (h : c ≠ Mark.opening) :
    Mark.opening ∉ image c rest :=
  not_mem_image rest (by decide) fun he => absurd he.symm h

end Escape

namespace Token

/-- Tokens as they are written, with stored markup shown by `image` and `ampersand` in front of the
codes of disguised characters. -/
def page (ampersand : Text) (image : Nat → Text) : List Token → Text
  | [] => []
  | .raw index :: tokens => image index ++ page ampersand image tokens
  | .disguised c :: tokens => ampersand ++ Span.code c ++ page ampersand image tokens
  | .char c :: tokens => Escape.image c (settled tokens) ++ page ampersand image tokens
  | .escaped c :: tokens => Escape.image c (settled tokens) ++ page ampersand image tokens

theorem not_mem_raw {c : Char} (n : Nat) (h : isAsciiDigit c = false)
    (ho : c ∉ Mark.opening :: (Mark.rawWord ++ [Mark.closing])) : c ∉ Mark.raw n := by
  unfold Mark.raw
  simp only [List.mem_cons, List.mem_append, not_or] at ho ⊢
  refine ⟨ho.1, ⟨ho.2.1, ?_⟩, ho.2.2⟩
  intro hm
  rw [isAsciiDigit_of_mem_decimal hm] at h
  cases h

theorem not_mem_code {c d : Char} (hc : c ≠ '#') (ha : Escape.isNameLetter c = false)
    (hx : isHexDigit c = false) (hs : c ≠ ';') : c ∉ Span.code d := by
  obtain ⟨body, hbody, hcode⟩ := Span.code_eq d
  rw [hcode]
  exact Entity.not_mem_closed hbody hc ha hx hs

theorem not_mem_disguise {c d : Char} (hm : c ∉ Mark.ampersand) (hc : c ∉ Span.code d) :
    c ∉ Span.disguise d := by
  rw [Span.disguise_eq, List.mem_append, not_or]
  exact ⟨hm, hc⟩

theorem bracket_not_mem_disguise (d : Char) : '<' ∉ Span.disguise d :=
  not_mem_disguise (by decide) (not_mem_code (by decide) (by decide) (by decide) (by decide))

/-- The text of tokens is escaped token by token. -/
theorem escape_settled (tokens : List Token) :
    Escape.text (settled tokens) = page Mark.ampersand Mark.raw tokens := by
  induction tokens with
  | nil => rfl
  | cons t tokens ih =>
    rw [settled, List.flatMap_cons]
    cases t with
    | char c =>
      rw [plain, List.singleton_append, Escape.text_cons, page, ← ih]
      rfl
    | escaped c =>
      rw [plain, List.singleton_append, Escape.text_cons, page, ← ih]
      rfl
    | disguised c =>
      have hcode {d : Char} (hc : d ≠ '#') (ha : Escape.isNameLetter d = false) (hx : isHexDigit d = false)
          (hs : d ≠ ';') (hm : d ∉ Mark.ampersand) : d ∉ Span.disguise c :=
        not_mem_disguise hm (not_mem_code hc ha hx hs)
      rw [plain, Escape.text_append _ _
        (hcode (by decide) (by decide) (by decide) (by decide) (by decide))
        (hcode (by decide) (by decide) (by decide) (by decide) (by decide))
        (hcode (by decide) (by decide) (by decide) (by decide) (by decide)),
        page, ← ih, Span.disguise_eq]
      rfl
    | raw index =>
      rw [plain, Escape.text_append _ _ (not_mem_raw index (by decide) (by decide))
        (not_mem_raw index (by decide) (by decide)) (not_mem_raw index (by decide) (by decide)),
        page, ← ih]
      rfl

end Token

/-! ### Stored markup put back -/

namespace Restore

variable {stash : Stash}

theorem readStored?_lt {cs digits rest : Text} {alone : Bool}
    (h : readStored? cs = some (alone, digits, rest)) : rest.length < cs.length := by
  unfold readStored? at h
  rcases Option.or_eq_some_iff.mp h with h | ⟨-, h⟩
  · obtain ⟨r, hread, hclose⟩ := Option.bind_eq_some_iff.mp h
    obtain ⟨inner, hopen, hraw⟩ := Option.bind_eq_some_iff.mp hread
    obtain ⟨left, hleft, heq⟩ := Option.map_eq_some_iff.mp hclose
    cases heq
    have h1 := Html.after?_length_le hopen
    have h2 := Mark.readRaw?_lt hraw
    have h3 := Html.after?_length_le hleft
    omega
  · obtain ⟨r, hread, heq⟩ := Option.map_eq_some_iff.mp h
    cases heq
    exact Mark.readRaw?_lt hread

theorem opening_mem_of_readRaw? {cs digits rest : Text}
    (h : Mark.readRaw? cs = some (digits, rest)) : Mark.opening ∈ cs := by
  cases cs with
  | nil => cases h
  | cons c cs =>
    by_cases hc : c = Mark.opening
    · exact hc ▸ List.mem_cons_self
    · rw [Mark.readRaw?_of_ne cs hc] at h
      cases h

theorem readStored?_of_not_mem {cs : Text} (h : Mark.opening ∉ cs) : readStored? cs = none := by
  cases hr : readStored? cs with
  | none => rfl
  | some r =>
    exfalso
    unfold readStored? at hr
    rcases Option.or_eq_some_iff.mp hr with hr | ⟨-, hr⟩
    · obtain ⟨r', hread, -⟩ := Option.bind_eq_some_iff.mp hr
      obtain ⟨inner, hopen, hraw⟩ := Option.bind_eq_some_iff.mp hread
      rw [after?_eq_some_iff] at hopen
      exact h (hopen ▸ List.mem_append_right _ (opening_mem_of_readRaw? hraw))
    · obtain ⟨r', hread, -⟩ := Option.map_eq_some_iff.mp hr
      exact h (opening_mem_of_readRaw? hread)

theorem readStored?_of_readRaw? {c : Char} (cs : Text) (hr : Mark.readRaw? (c :: cs) = none)
    (hp : ∀ d ds, c :: cs ≠ '<' :: 'p' :: d :: ds) : readStored? (c :: cs) = none := by
  have hopen : after? "<p>".toList (c :: cs) = none := by
    cases ha : after? "<p>".toList (c :: cs) with
    | none => rfl
    | some rest =>
      rw [after?_eq_some_iff] at ha
      exact absurd ha (hp '>' rest)
  rw [readStored?, hopen, hr]
  rfl

theorem readStored?_raw (n : Nat) (rest : Text) :
    readStored? (Mark.raw n ++ rest) = some (false, decimal n, rest) := by
  rw [readStored?, Mark.readRaw?_raw]
  rfl

/-- Reads a mark of stored markup, with what stands in its place; `depth` bounds the nesting. -/
def recognise (stash : Stash) (depth : Nat) (cs : Text) : Option (Text × Text) :=
  match readStored? cs with
  | none => none
  | some (alone, digits, rest) =>
    match stash.entries[digitsValue digits]? with
    | none => some (cs.take (cs.length - rest.length), rest)
    | some markup =>
      let shown :=
        if alone && !isBlockMarkup markup then "<p>".toList ++ markup ++ "</p>".toList
        else markup
      some (within stash depth shown, rest)

theorem within_succ (depth : Nat) (cs : Text) :
    within stash (depth + 1) cs = replaceAll (recognise stash depth) cs := rfl

theorem reads_recognise (depth : Nat) : Reads (recognise stash depth) := by
  intro cs value rest h
  unfold recognise at h
  split at h
  · cases h
  · next alone digits left hread =>
    have hlt := readStored?_lt hread
    split at h
    · cases h
      exact hlt
    · cases h
      exact hlt

theorem recognise_none {depth : Nat} {cs : Text} (h : readStored? cs = none) :
    recognise stash depth cs = none := by
  unfold recognise
  rw [h]

/-- A text without marks stays as it is. -/
theorem within_of_not_mem (depth : Nat) (cs : Text) (h : Mark.opening ∉ cs) :
    within stash depth cs = cs := by
  cases depth with
  | zero => rfl
  | succ depth =>
    rw [within_succ]
    apply replaceAll_none
    intro c ds ⟨before, hb⟩
    apply recognise_none
    apply readStored?_of_not_mem
    intro hm
    exact h (hb ▸ List.mem_append_right before hm)

theorem within_append (depth : Nat) (front rest : Text) (ho : Mark.OnlyAmpersands front)
    (hl : '<' ∉ front) :
    within stash (depth + 1) (front ++ rest) = front ++ within stash (depth + 1) rest := by
  rw [within_succ, within_succ]
  apply replaceAll_append
  intro c cs ⟨before, hb⟩
  have hmem : c ∈ front := hb ▸ List.mem_append_right before List.mem_cons_self
  rw [hb] at ho
  apply recognise_none
  apply readStored?_of_readRaw? _ (ho.suffix.readRaw? rest)
  intro d ds he
  rw [List.cons.injEq] at he
  exact hl (he.1 ▸ hmem)

/-- The page with its ampersands put back. -/
def ampersands (cs : Text) : Text :=
  replaceText Mark.ampersand ['&'] cs

theorem ampersands_append (front rest : Text) (h : Mark.opening ∉ front) :
    ampersands (front ++ rest) = front ++ ampersands rest :=
  replaceText_append _ _ _ front rest h

theorem ampersands_cons (front : Text) (c : Char) (rest : Text) (hc : c ∉ Mark.ampersand) :
    ampersands (front ++ c :: rest) = ampersands front ++ c :: ampersands rest :=
  replaceText_cons _ _ c rest (by decide) hc front

theorem ampersands_mark (rest : Text) :
    ampersands (Mark.ampersand ++ rest) = ['&'] ++ ampersands rest :=
  replaceText_part _ _ rest (by decide)

/-- A bracket that opens no paragraph is kept. -/
theorem within_bracket (depth : Nat) (c : Char) (rest : Text) (hc : c ≠ 'p') :
    within stash (depth + 1) ('<' :: c :: rest) =
      '<' :: within stash (depth + 1) (c :: rest) := by
  rw [within_succ, within_succ]
  apply replaceAll_keep
  apply recognise_none
  apply readStored?_of_readRaw? _ (Mark.readRaw?_of_ne _ (by decide))
  intro d ds he
  cases he
  exact hc rfl

/-- A mark gives way to the markup that is stored under its number. -/
theorem within_raw (depth index : Nat) (rest : Text) (hi : index < stash.entries.length)
    (ho : Mark.opening ∉ stash.markup index) :
    within stash (depth + 1) (Mark.raw index ++ rest) =
      stash.markup index ++ within stash (depth + 1) rest := by
  have hentry : stash.entries[index]? = some (stash.markup index) := by
    rw [Stash.markup, List.getElem?_eq_getElem hi]
    rfl
  have hread : recognise stash depth (Mark.raw index ++ rest) =
      some (within stash depth (stash.markup index), rest) := by
    unfold recognise
    rw [readStored?_raw]
    dsimp only
    rw [digitsValue_decimal, hentry]
    rfl
  rw [within_succ, within_succ, replaceAll_read (reads_recognise depth) hread,
    within_of_not_mem depth _ ho]

end Restore

/-! ### What stored markup shows -/

/-- Stored markup that shows the reader of the page what the anchor takes from it: it is skipped
whole, or it is a closed reference. -/
inductive Stash.IsClear (stash : Stash) (index : Nat) : Prop
  | hidden (markup : Text) (entry : stash.entries[index]? = some markup)
      (quiet : Mark.opening ∉ markup) (empty : Anchor.dropTags markup = [])
      (skipped : ∀ rest, Html.skip? (markup ++ rest) = some rest)
  | reference (body : Text) (entry : stash.entries[index]? = some ('&' :: (body ++ [';'])))
      (isBody : Entity.IsBody body)

namespace Stash.IsClear

variable {stash : Stash} {index : Nat}

theorem markup_eq {markup : Text} (h : stash.entries[index]? = some markup) :
    stash.markup index = markup := by
  rw [Stash.markup, h]
  rfl

theorem dropTags_of_not_mem (cs : Text) (h : '<' ∉ cs) : Anchor.dropTags cs = cs := by
  apply replaceAll_none
  intro c ds ⟨before, hb⟩
  have hc : c ≠ '<' := by
    intro hc
    rw [hb, hc] at h
    exact h (List.mem_append_right _ List.mem_cons_self)
  have hread : Anchor.readTag? (c :: ds) = none := by
    unfold Anchor.readTag?
    split <;> simp_all
  rw [hread]
  rfl

theorem lt_length (h : stash.IsClear index) : index < stash.entries.length := by
  cases h with
  | hidden markup entry quiet empty skipped => exact (List.getElem?_eq_some_iff.mp entry).1
  | reference body entry isBody => exact (List.getElem?_eq_some_iff.mp entry).1

theorem remains_eq (h : stash.IsClear index) :
    stash.remains index = [] ∨
      ∃ body, Entity.IsBody body ∧ stash.remains index = '&' :: (body ++ [';']) := by
  cases h with
  | hidden markup entry quiet empty skipped =>
    rw [Stash.remains, markup_eq entry]
    exact Or.inl empty
  | reference body entry isBody =>
    rw [Stash.remains, markup_eq entry]
    refine Or.inr ⟨body, isBody, dropTags_of_not_mem _ ?_⟩
    exact Entity.not_mem_reference isBody (by decide) (by decide) (by decide) (by decide)

theorem opening_not_mem_markup (h : stash.IsClear index) : Mark.opening ∉ stash.markup index := by
  cases h with
  | hidden markup entry quiet empty skipped =>
    rw [markup_eq entry]
    exact quiet
  | reference body entry isBody =>
    rw [markup_eq entry]
    exact Entity.not_mem_reference isBody (by decide) (by decide) (by decide) (by decide)

theorem opening_not_mem_remains (h : stash.IsClear index) :
    Mark.opening ∉ stash.remains index := by
  rcases h.remains_eq with he | ⟨body, hbody, he⟩
  · rw [he]
    exact List.not_mem_nil
  · rw [he]
    exact Entity.not_mem_reference hbody (by decide) (by decide) (by decide) (by decide)

/-- A reader skips from stored markup what the anchor does not take. -/
theorem strip_markup (h : stash.IsClear index) (rest : Text) :
    Html.strip (stash.markup index ++ rest) = stash.remains index ++ Html.strip rest := by
  cases h with
  | hidden markup entry quiet empty skipped =>
    rw [Stash.remains, markup_eq entry, empty, Html.strip_skip _ rest (skipped rest)]
    rfl
  | reference body entry isBody =>
    have hquiet : '<' ∉ '&' :: (body ++ [';']) :=
      Entity.not_mem_reference isBody (by decide) (by decide) (by decide) (by decide)
    rw [Stash.remains, markup_eq entry, dropTags_of_not_mem _ hquiet,
      Html.strip_append _ _ hquiet]

end Stash.IsClear

/-! ### Tokens on the page -/

namespace Token

variable {stash : Stash}

/-- Stored markup is put back token by token. -/
theorem within_page (depth : Nat) (tokens : List Token) (rest : Text)
    (hf : ∀ t ∈ tokens, t.IsFree) (hc : ∀ index, .raw index ∈ tokens → stash.IsClear index) :
    Restore.within stash (depth + 1) (page Mark.ampersand Mark.raw tokens ++ rest) =
      page Mark.ampersand stash.markup tokens ++ Restore.within stash (depth + 1) rest := by
  induction tokens with
  | nil => rfl
  | cons t tokens ih =>
    obtain ⟨hfree, hothers⟩ := List.forall_mem_cons.mp hf
    have hrest := ih hothers fun index hm => hc index (List.mem_cons_of_mem t hm)
    have hkept (front : Text) (ho : Mark.OnlyAmpersands front) (hl : '<' ∉ front) :
        Restore.within stash (depth + 1) (front ++ page Mark.ampersand Mark.raw tokens ++ rest) =
        front ++ page Mark.ampersand stash.markup tokens ++
          Restore.within stash (depth + 1) rest := by
      rw [List.append_assoc, Restore.within_append depth _ _ ho hl, hrest, List.append_assoc]
    have himage (c : Char) (h : c ≠ Mark.opening) := hkept (Escape.image c (settled tokens))
      (Mark.onlyAmpersands_of_not_mem (Escape.opening_not_mem_image _ h))
      (Escape.bracket_not_mem_image c _)
    cases t with
    | char c => exact himage c hfree
    | escaped c => exact himage c hfree
    | disguised c =>
      have hdisguise := hkept (Span.disguise c) (Mark.onlyAmpersands_disguise c)
        (bracket_not_mem_disguise c)
      rw [Span.disguise_eq] at hdisguise
      exact hdisguise
    | raw index =>
      have hclear := hc index List.mem_cons_self
      rw [page, page, List.append_assoc, Restore.within_raw depth index _ hclear.lt_length
        hclear.opening_not_mem_markup, hrest, List.append_assoc]

/-- Ampersands are put back token by token. -/
theorem ampersands_page (tokens : List Token) (rest : Text) (hf : ∀ t ∈ tokens, t.IsFree)
    (hc : ∀ index, .raw index ∈ tokens → stash.IsClear index) :
    Restore.ampersands (page Mark.ampersand stash.markup tokens ++ rest) =
      page ['&'] stash.markup tokens ++ Restore.ampersands rest := by
  induction tokens with
  | nil => rfl
  | cons t tokens ih =>
    obtain ⟨hfree, hothers⟩ := List.forall_mem_cons.mp hf
    have hrest := ih hothers fun index hm => hc index (List.mem_cons_of_mem t hm)
    have hkept (front : Text) (ho : Mark.opening ∉ front) :
        Restore.ampersands (front ++ page Mark.ampersand stash.markup tokens ++ rest) =
        front ++ page ['&'] stash.markup tokens ++ Restore.ampersands rest := by
      rw [List.append_assoc, Restore.ampersands_append _ _ ho, hrest, List.append_assoc]
    cases t with
    | char c => exact hkept _ (Escape.opening_not_mem_image _ hfree)
    | escaped c => exact hkept _ (Escape.opening_not_mem_image _ hfree)
    | disguised c =>
      have hcode := hkept (Span.code c) (Mark.opening_not_mem_code c)
      rw [page, page, List.append_assoc, List.append_assoc, Restore.ampersands_mark,
        ← List.append_assoc (Span.code c), hcode]
      simp only [List.append_assoc]
    | raw index => exact hkept _ (hc index List.mem_cons_self).opening_not_mem_markup

/-- A reader skips tags and comments token by token. -/
theorem strip_page (tokens : List Token) (rest : Text)
    (hc : ∀ index, .raw index ∈ tokens → stash.IsClear index) :
    Html.strip (page ['&'] stash.markup tokens ++ rest) =
      page ['&'] stash.remains tokens ++ Html.strip rest := by
  induction tokens with
  | nil => rfl
  | cons t tokens ih =>
    have hrest := ih fun index hm => hc index (List.mem_cons_of_mem t hm)
    have hkept (front : Text) (hl : '<' ∉ front) :
        Html.strip (front ++ page ['&'] stash.markup tokens ++ rest) =
        front ++ page ['&'] stash.remains tokens ++ Html.strip rest := by
      rw [List.append_assoc, Html.strip_append _ _ hl, hrest, List.append_assoc]
    cases t with
    | char c => exact hkept _ (Escape.bracket_not_mem_image c _)
    | escaped c => exact hkept _ (Escape.bracket_not_mem_image c _)
    | disguised c =>
      apply hkept
      rw [List.mem_append, not_or]
      exact ⟨by decide, not_mem_code (by decide) (by decide) (by decide) (by decide)⟩
    | raw index =>
      rw [page, page, List.append_assoc, (hc index List.mem_cons_self).strip_markup, hrest,
        List.append_assoc]

end Token

end Changelog
