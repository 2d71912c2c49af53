import Changelog.Markdown.Restore
import Changelog.Markdown.Span.Address
import Changelog.Proofs.Anchors.Reader
import Changelog.Proofs.Anchors.References
import Changelog.Style.Anchor

/-!
# Tokens of texts

A text of a document is made of characters, marks of escaped characters and of stored markup, and
the characters of mail addresses, whose ampersands are marks as well.  The stages behind the parser
resolve one kind of marks after the other, and each of them goes through the tokens of a text without
a look at their neighbours.
-/

namespace Changelog

open Text

/-- A part of a text of a document. -/
inductive Token
  /-- A character that stands for itself. -/
  | char (c : Char)
  /-- The mark of an escaped character. -/
  | escaped (c : Char)
  /-- A character of a mail address, which is written as a reference. -/
  | disguised (c : Char)
  /-- The mark of stored markup. -/
  | raw (index : Nat)

/-- The markup that is stored under a number. -/
def Stash.markup (stash : Stash) (index : Nat) : Text :=
  (stash.entries[index]?).getD []

/-- What the anchor takes from the markup that is stored under a number. -/
def Stash.remains (stash : Stash) (index : Nat) : Text :=
  Anchor.dropTags (stash.markup index)

namespace Token

/-- The token with marks of escaped characters, and stored markup shown by `image`. -/
def marked (image : Nat → Text) : Token → Text
  | .char c => [c]
  | .escaped c => Mark.escaped c.toNat
  | .disguised c => Span.disguise c
  | .raw index => image index

/-- The token with escaped characters put back, and stored markup shown by `image`. -/
def plain (image : Nat → Text) : Token → Text
  | .char c => [c]
  | .escaped c => [c]
  | .disguised c => Span.disguise c
  | .raw index => image index

/-- The text that tokens write. -/
def write (tokens : List Token) : Text :=
  tokens.flatMap (marked Mark.raw)

/-- The text of tokens once escaped characters are put back. -/
def settled (tokens : List Token) : Text :=
  tokens.flatMap (plain Mark.raw)

/-- The text that the anchor takes from tokens, with references in it. -/
def taken (stash : Stash) (tokens : List Token) : Text :=
  tokens.flatMap (plain stash.remains)

/-- Whether the character of a token begins no mark. -/
def IsFree : Token → Prop
  | .char c => c ≠ Mark.opening
  | .escaped c => c ≠ Mark.opening
  | .disguised _ => True
  | .raw _ => True

end Token

/-! ### Characters of mail addresses -/

namespace Span

/-- What follows the ampersand of a disguised character. -/
def code (c : Char) : Text :=
  match Entity.addressName? c.toNat with
  | some name => name.toList ++ [';']
  | none => '#' :: (decimal c.toNat ++ [';'])

theorem disguise_eq (c : Char) : disguise c = Mark.ampersand ++ code c := by
  unfold disguise code
  cases Entity.addressName? c.toNat with
  | some name => exact List.append_assoc _ _ _
  | none => rfl

/-- The names of characters are short and made of letters and digits. -/
theorem addressName?_spec {n : Nat} {name : String} (h : Entity.addressName? n = some name) :
    name.toList ≠ [] ∧ name.toList.length ≤ 32 ∧
      ∀ c ∈ name.toList, Escape.isNameLetter c = true := by
  unfold Entity.addressName? at h
  obtain ⟨e, he, rfl⟩ := Option.map_eq_some_iff.mp h
  have hall : (Entity.addressNamesA ++ Entity.addressNamesB ++ Entity.addressNamesC).all
      (fun e => !e.2.toList.isEmpty && decide (e.2.toList.length ≤ 32) &&
        e.2.toList.all Char.isAlphanum) = true := by decide +kernel
  have hname := List.all_eq_true.mp hall e (List.mem_of_find?_eq_some he)
  rw [Bool.and_eq_true, Bool.and_eq_true, Bool.not_eq_true', List.isEmpty_eq_false_iff,
    decide_eq_true_eq, List.all_eq_true] at hname
  exact ⟨hname.1.1, hname.1.2, fun c hc => Escape.isNameLetter_of_isAlphanum (hname.2 c hc)⟩

/-- A disguised character is written as a closed reference. -/
theorem code_eq (c : Char) : ∃ body, Entity.IsBody body ∧ code c = body ++ [';'] := by
  unfold code
  cases hn : Entity.addressName? c.toNat with
  | some name =>
    obtain ⟨hne, -, hall⟩ := addressName?_spec hn
    exact ⟨name.toList, Or.inl ⟨hne, hall⟩, rfl⟩
  | none =>
    refine ⟨'#' :: decimal c.toNat, Or.inr (Or.inl ⟨_, Nat.toDigits_ne_nil, rfl, ?_⟩), rfl⟩
    exact fun d hd => isAsciiDigit_of_mem_decimal hd

end Span

/-! ### Marks -/

namespace Mark

/-- Whether all marks that begin in a text are marks of ampersands, as far as their first letters
tell. -/
def OnlyAmpersands : Text → Prop
  | [] => True
  | c :: cs => (c = opening → cs.head? = some 'a') ∧ OnlyAmpersands cs

instance OnlyAmpersands.decidable : (cs : Text) → Decidable (OnlyAmpersands cs)
  | [] => inferInstanceAs (Decidable True)
  | c :: cs =>
    have := decidable cs
    inferInstanceAs (Decidable ((c = opening → cs.head? = some 'a') ∧ OnlyAmpersands cs))

theorem onlyAmpersands_of_not_mem {cs : Text} (h : opening ∉ cs) : OnlyAmpersands cs := by
  induction cs with
  | nil => trivial
  | cons c cs ih =>
    rw [List.mem_cons, not_or] at h
    exact ⟨fun hc => absurd hc.symm h.1, ih h.2⟩

theorem OnlyAmpersands.append {cs ds : Text} (h : OnlyAmpersands cs) (h' : OnlyAmpersands ds) :
    OnlyAmpersands (cs ++ ds) := by
  induction cs with
  | nil => exact h'
  | cons c cs ih =>
    refine ⟨fun hc => ?_, ih h.2⟩
    obtain ⟨more, hmore⟩ := List.head?_eq_some_iff.mp (h.1 hc)
    rw [hmore]
    rfl

theorem OnlyAmpersands.suffix {before cs : Text} (h : OnlyAmpersands (before ++ cs)) :
    OnlyAmpersands cs := by
  induction before with
  | nil => exact h
  | cons c before ih => exact ih h.2

theorem readDigits?_lt {isDigit : Char → Bool} {cs digits rest : Text}
    (h : readDigits? isDigit cs = some (digits, rest)) : rest.length < cs.length := by
  have hspan := (spanWhile_suffix isDigit cs).length_le
  unfold readDigits? at h
  split at h
  · cases h
  · next d ds e left hs =>
    split at h
    · cases h
      rw [hs] at hspan
      exact hspan
    · cases h
  · cases h

theorem readRaw?_lt {cs digits rest : Text} (h : readRaw? cs = some (digits, rest)) :
    rest.length < cs.length := by
  unfold readRaw? readWord? at h
  split at h
  · split at h
    · obtain ⟨behind, hafter, hdigits⟩ := Option.bind_eq_some_iff.mp h
      have hle := Html.after?_length_le hafter
      have hlt := readDigits?_lt hdigits
      simp only [List.length_cons]
      omega
    · cases h
  · cases h

theorem readEscaped?_lt {cs digits rest : Text} (h : readEscaped? cs = some (digits, rest)) :
    rest.length < cs.length := by
  unfold readEscaped? at h
  split at h
  · split at h
    · have hlt := readDigits?_lt h
      simp only [List.length_cons]
      omega
    · cases h
  · cases h

theorem readRaw?_of_ne {c : Char} (cs : Text) (h : c ≠ opening) : readRaw? (c :: cs) = none := by
  unfold readRaw? readWord?
  exact if_neg h

theorem readEscaped?_of_ne {c : Char} (cs : Text) (h : c ≠ opening) :
    readEscaped? (c :: cs) = none := by
  unfold readEscaped?
  exact if_neg h

/-- A mark of an ampersand is no mark of stored markup. -/
theorem OnlyAmpersands.readRaw? {c : Char} {cs : Text} (h : OnlyAmpersands (c :: cs))
    (rest : Text) : Mark.readRaw? (c :: (cs ++ rest)) = none := by
  by_cases hc : c = opening
  · obtain ⟨more, hmore⟩ := List.head?_eq_some_iff.mp (h.1 hc)
    rw [hc, hmore, Mark.readRaw?, readWord?, if_pos rfl]
    rfl
  · exact readRaw?_of_ne _ hc

/-- A mark of an ampersand is no mark of an escaped character. -/
theorem OnlyAmpersands.readEscaped? {c : Char} {cs : Text} (h : OnlyAmpersands (c :: cs))
    (rest : Text) : Mark.readEscaped? (c :: (cs ++ rest)) = none := by
  by_cases hc : c = opening
  · obtain ⟨more, hmore⟩ := List.head?_eq_some_iff.mp (h.1 hc)
    have ha : isDigit 'a' = false := by decide
    rw [hc, hmore, Mark.readEscaped?, if_pos rfl, List.cons_append, readDigits?, spanWhile, ha]
    rfl
  · exact readEscaped?_of_ne _ hc

/-- Digits up to the end of a mark. -/
theorem readDigits?_closing {isDigit : Char → Bool} {digits : Text} (hne : digits ≠ [])
    (hd : ∀ d ∈ digits, isDigit d = true) (hc : isDigit closing = false) (rest : Text) :
    readDigits? isDigit (digits ++ closing :: rest) = some (digits, rest) := by
  obtain ⟨d, ds, rfl⟩ := List.exists_cons_of_ne_nil hne
  rw [readDigits?, Entity.spanWhile_stop isDigit (d :: ds) rest closing hd hc]
  exact if_pos rfl

theorem readEscaped?_closing {digits : Text} (hne : digits ≠ [])
    (hd : ∀ d ∈ digits, isDigit d = true) (rest : Text) :
    readEscaped? (opening :: (digits ++ closing :: rest)) = some (digits, rest) := by
  rw [readEscaped?, if_pos rfl]
  exact readDigits?_closing hne hd (by decide) rest

theorem readDigits?_decimal (isDigit : Char → Bool)
    (hd : ∀ c, isAsciiDigit c = true → isDigit c = true) (hc : isDigit closing = false) (n : Nat)
    (rest : Text) : readDigits? isDigit (decimal n ++ closing :: rest) = some (decimal n, rest) :=
  readDigits?_closing Nat.toDigits_ne_nil (fun c hm => hd c (isAsciiDigit_of_mem_decimal hm)) hc
    rest

theorem isDigit_of_isAsciiDigit (c : Char) (h : isAsciiDigit c = true) : isDigit c = true := by
  unfold isAsciiDigit at h
  rw [Bool.and_eq_true, decide_eq_true_eq, decide_eq_true_eq] at h
  have hlow : 0x30 ≤ c.toNat := h.1
  have hhigh : c.toNat ≤ 0x39 := h.2
  unfold isDigit digitValue? digitZeros
  rw [List.find?_cons_of_pos]
  · rfl
  · rw [Bool.and_eq_true, decide_eq_true_eq, decide_eq_true_eq]
    omega

theorem raw_append (n : Nat) (rest : Text) :
    raw n ++ rest = opening :: (rawWord ++ (decimal n ++ closing :: rest)) := by
  simp only [raw, List.cons_append, List.append_assoc, List.nil_append]

theorem escaped_append (n : Nat) (rest : Text) :
    escaped n ++ rest = opening :: (decimal n ++ closing :: rest) := by
  simp only [escaped, List.cons_append, List.append_assoc, List.nil_append]

theorem readRaw?_raw (n : Nat) (rest : Text) :
    readRaw? (raw n ++ rest) = some (decimal n, rest) := by
  have hafter : after? rawWord (rawWord ++ (decimal n ++ closing :: rest)) =
      some (decimal n ++ closing :: rest) := (after?_eq_some_iff _ _ _).mpr rfl
  rw [raw_append, readRaw?, readWord?, if_pos rfl, hafter]
  exact readDigits?_decimal isAsciiDigit (fun _ h => h) (by decide) n rest

theorem readRaw?_escaped (n : Nat) (rest : Text) : readRaw? (escaped n ++ rest) = none := by
  rw [escaped_append, readRaw?, readWord?, if_pos rfl]
  cases hn : decimal n with
  | nil => exact absurd hn Nat.toDigits_ne_nil
  | cons d ds =>
    have hd : isAsciiDigit d = true :=
      isAsciiDigit_of_mem_decimal (n := n) (hn ▸ List.mem_cons_self)
    have hw : 'w' ≠ d := by
      intro he
      rw [← he] at hd
      revert hd
      decide
    show ((if 'w' = d then _ else none : Option Text).bind _) = none
    rw [if_neg hw]
    rfl

theorem readEscaped?_escaped (n : Nat) (rest : Text) :
    readEscaped? (escaped n ++ rest) = some (decimal n, rest) := by
  rw [escaped_append, readEscaped?, if_pos rfl]
  exact readDigits?_decimal isDigit isDigit_of_isAsciiDigit (by decide) n rest

theorem readEscaped?_raw (n : Nat) (rest : Text) : readEscaped? (raw n ++ rest) = none := by
  rw [raw_append, readEscaped?, if_pos rfl]
  have hw : isDigit 'w' = false := by decide
  show readDigits? isDigit ('w' :: ("zxhzdk:".toList ++ (decimal n ++ closing :: rest))) = none
  unfold readDigits?
  rw [spanWhile, hw]
  rfl

/-- Behind its first character a mark of stored markup begins no other mark. -/
theorem opening_not_mem_raw_tail (n : Nat) : opening ∉ rawWord ++ (decimal n ++ [closing]) := by
  rw [List.mem_append, List.mem_append, not_or, not_or]
  refine ⟨by decide, ?_, by decide⟩
  intro hm
  have hd := isAsciiDigit_of_mem_decimal hm
  revert hd
  decide

theorem opening_not_mem_escaped_tail (n : Nat) : opening ∉ decimal n ++ [closing] := by
  rw [List.mem_append, not_or]
  refine ⟨?_, by decide⟩
  intro hm
  have hd := isAsciiDigit_of_mem_decimal hm
  revert hd
  decide

theorem readDecimal_decimal (c : Char) : readDecimal (decimal c.toNat) = .ok c.toNat := by
  have hvalid : c.toNat < 0xD800 ∨ 0xDFFF < c.toNat ∧ c.toNat < 0x110000 := c.valid
  have hlen : (decimal c.toNat).length ≤ 7 := by
    rw [decimal, Nat.length_toDigits_le_iff (by decide) (by decide)]
    omega
  unfold readDecimal digitLimit
  rw [if_pos (by omega), digitsValue_decimal]

/-- The digits of a character name the character. -/
theorem escapedChar_decimal (c : Char) : escapedChar (decimal c.toNat) = .ok c := by
  have hvalid : c.toNat < 0xD800 ∨ 0xDFFF < c.toNat ∧ c.toNat < 0x110000 := c.valid
  unfold escapedChar
  rw [readDecimal_decimal]
  show charOf c.toNat = .ok c
  unfold charOf
  rw [if_neg (by omega), if_neg (by omega), if_neg (by omega), Char.ofNat_toNat]

theorem reads_escaped :
    Reads fun t => (readEscaped? t).map fun r => ((escapedChar r.1).map ([·]), r.2) := by
  intro cs value rest h
  obtain ⟨r, hread, heq⟩ := Option.map_eq_some_iff.mp h
  cases heq
  exact readEscaped?_lt hread

theorem unescape_append (front rest : Text) (h : OnlyAmpersands front) :
    unescape (front ++ rest) = (unescape rest).map (front ++ ·) := by
  apply replaceAll?_append
  intro c cs ⟨before, hb⟩
  rw [hb] at h
  rw [h.suffix.readEscaped? rest]
  rfl

theorem unescape_of_not_mem {cs : Text} (h : opening ∉ cs) : unescape cs = .ok cs := by
  have hkeep := unescape_append cs [] (onlyAmpersands_of_not_mem h)
  rw [List.append_nil] at hkeep
  rw [hkeep]
  exact congrArg Except.ok (List.append_nil cs)

theorem unescape_escaped (c : Char) (rest : Text) :
    unescape (escaped c.toNat ++ rest) = (unescape rest).map ([c] ++ ·) := by
  have h : (readEscaped? (escaped c.toNat ++ rest)).map
      (fun r => ((escapedChar r.1).map ([·]), r.2)) = some (.ok [c], rest) := by
    rw [readEscaped?_escaped, Option.map_some, escapedChar_decimal]
    rfl
  unfold unescape
  rw [replaceAll?_read reads_escaped h]
  rfl

theorem unescape_raw (n : Nat) (rest : Text) :
    unescape (raw n ++ rest) = (unescape rest).map (raw n ++ ·) := by
  have htail := unescape_append (rawWord ++ (decimal n ++ [closing])) rest
    (onlyAmpersands_of_not_mem (opening_not_mem_raw_tail n))
  have hread := readEscaped?_raw n rest
  have hraw : raw n ++ rest = opening :: (rawWord ++ (decimal n ++ [closing]) ++ rest) := by
    simp only [raw, List.cons_append, List.append_assoc, List.nil_append]
  rw [hraw] at hread ⊢
  unfold unescape at htail ⊢
  rw [replaceAll?_keep _ _ (by rw [hread]; rfl), htail]
  cases replaceAll? _ rest with
  | error e => rfl
  | ok v =>
    show Except.ok (opening :: (rawWord ++ (decimal n ++ [closing]) ++ v)) = .ok (raw n ++ v)
    simp only [raw, List.cons_append, List.append_assoc, List.nil_append]

theorem opening_not_mem_code (c : Char) : opening ∉ Span.code c := by
  obtain ⟨body, hbody, hcode⟩ := Span.code_eq c
  rw [hcode]
  exact Entity.not_mem_closed hbody (by decide) (by decide) (by decide) (by decide)

theorem onlyAmpersands_disguise (c : Char) : OnlyAmpersands (Span.disguise c) := by
  rw [Span.disguise_eq]
  have hmark : OnlyAmpersands ampersand :=
    ⟨fun _ => rfl, onlyAmpersands_of_not_mem (by decide)⟩
  exact hmark.append (onlyAmpersands_of_not_mem (opening_not_mem_code c))

end Mark

/-! ### Tokens resolved -/

namespace Token

/-- Escaped characters are put back where they stand. -/
theorem unescape_marked (image : Nat → Text) (tokens : List Token)
    (hf : ∀ t ∈ tokens, t.IsFree)
    (hi : ∀ index, .raw index ∈ tokens → ∀ rest,
      Mark.unescape (image index ++ rest) = (Mark.unescape rest).map (image index ++ ·)) :
    Mark.unescape (tokens.flatMap (marked image)) = .ok (tokens.flatMap (plain image)) := by
  induction tokens with
  | nil => rfl
  | cons t tokens ih =>
    obtain ⟨hfree, hothers⟩ := List.forall_mem_cons.mp hf
    have hrest := ih hothers fun index hm => hi index (List.mem_cons_of_mem t hm)
    rw [List.flatMap_cons, List.flatMap_cons]
    cases t with
    | char c =>
      have hc : Mark.opening ∉ [c] := fun hm => hfree (List.mem_singleton.mp hm).symm
      rw [marked, Mark.unescape_append [c] _ (Mark.onlyAmpersands_of_not_mem hc), hrest]
      rfl
    | disguised c =>
      rw [marked, Mark.unescape_append _ _ (Mark.onlyAmpersands_disguise c), hrest]
      rfl
    | escaped c =>
      rw [marked, Mark.unescape_escaped, hrest]
      rfl
    | raw index =>
      rw [marked, hi index List.mem_cons_self, hrest]
      rfl

theorem settleText_write (tokens : List Token) (hf : ∀ t ∈ tokens, t.IsFree) :
    Element.settleText (write tokens) = settled tokens := by
  have h := unescape_marked Mark.raw tokens hf fun index _ => Mark.unescape_raw index
  unfold Element.settleText write
  rw [h]
  rfl

variable {stash : Stash}

theorem reads_raw : Reads fun t => (Mark.readRaw? t).map fun r =>
    (Anchor.rawText stash r.1, r.2) := by
  intro cs value rest h
  obtain ⟨r, hread, heq⟩ := Option.map_eq_some_iff.mp h
  cases heq
  exact Mark.readRaw?_lt hread

theorem resolveRaw_append (front rest : Text) (h : Mark.OnlyAmpersands front) :
    Anchor.resolveRaw stash (front ++ rest) =
      (Anchor.resolveRaw stash rest).map (front ++ ·) := by
  apply replaceAll?_append
  intro c cs ⟨before, hb⟩
  rw [hb] at h
  rw [h.suffix.readRaw? rest]
  rfl

theorem resolveRaw_escaped (n : Nat) (rest : Text) :
    Anchor.resolveRaw stash (Mark.escaped n ++ rest) =
      (Anchor.resolveRaw stash rest).map (Mark.escaped n ++ ·) := by
  have htail : Anchor.resolveRaw stash (decimal n ++ [Mark.closing] ++ rest) = _ :=
    resolveRaw_append _ rest (Mark.onlyAmpersands_of_not_mem (Mark.opening_not_mem_escaped_tail n))
  have hread := Mark.readRaw?_escaped n rest
  have hescaped : Mark.escaped n ++ rest =
      Mark.opening :: (decimal n ++ [Mark.closing] ++ rest) := rfl
  rw [hescaped] at hread ⊢
  unfold Anchor.resolveRaw at htail ⊢
  rw [replaceAll?_keep _ _ (by rw [hread]; rfl), htail]
  cases replaceAll? _ rest with
  | error e => rfl
  | ok v => rfl

theorem rawText_decimal {index : Nat} {v : Text} (hi : index < stash.entries.length)
    (h : Anchor.rawText stash (decimal index) = .ok v) : v = stash.remains index := by
  unfold Anchor.rawText at h
  obtain ⟨n, hn, hv⟩ := map_ok h
  have hindex : n = index := by
    unfold readDecimal at hn
    split at hn
    · rw [digitsValue_decimal] at hn
      exact (Except.ok.inj hn).symm
    · cases hn
  rw [hindex, List.getElem?_eq_getElem hi] at hv
  rw [← hv, Stash.remains, Stash.markup, List.getElem?_eq_getElem hi]
  rfl

/-- Stored markup is resolved where its mark stands. -/
theorem resolveRaw_write (tokens : List Token) (hf : ∀ t ∈ tokens, t.IsFree)
    (hi : ∀ index, .raw index ∈ tokens → index < stash.entries.length) (v : Text)
    (h : Anchor.resolveRaw stash (write tokens) = .ok v) :
    v = tokens.flatMap (marked stash.remains) := by
  induction tokens generalizing v with
  | nil => exact (Except.ok.inj h).symm
  | cons t tokens ih =>
    obtain ⟨hfree, hothers⟩ := List.forall_mem_cons.mp hf
    have hrest := ih hothers fun index hm => hi index (List.mem_cons_of_mem t hm)
    rw [write, List.flatMap_cons] at h
    rw [List.flatMap_cons]
    cases t with
    | char c =>
      have hc : Mark.opening ∉ [c] := fun hm => hfree (List.mem_singleton.mp hm).symm
      rw [marked, resolveRaw_append [c] _ (Mark.onlyAmpersands_of_not_mem hc)] at h
      obtain ⟨v', hv', rfl⟩ := map_ok h
      rw [hrest v' hv']
      rfl
    | disguised c =>
      rw [marked, resolveRaw_append _ _ (Mark.onlyAmpersands_disguise c)] at h
      obtain ⟨v', hv', rfl⟩ := map_ok h
      rw [hrest v' hv']
      rfl
    | escaped c =>
      rw [marked, resolveRaw_escaped] at h
      obtain ⟨v', hv', rfl⟩ := map_ok h
      rw [hrest v' hv']
      rfl
    | raw index =>
      have hread : (Mark.readRaw? (Mark.raw index ++ tokens.flatMap (marked Mark.raw))).map
          (fun r => (Anchor.rawText stash r.1, r.2)) =
          some (Anchor.rawText stash (decimal index), tokens.flatMap (marked Mark.raw)) := by
        rw [Mark.readRaw?_raw]
        rfl
      rw [marked] at h
      unfold Anchor.resolveRaw at h
      rw [replaceAll?_read reads_raw hread] at h
      cases hr : Anchor.rawText stash (decimal index) with
      | error e =>
        rw [hr] at h
        cases h
      | ok shown =>
        rw [hr] at h
        obtain ⟨v', hv', rfl⟩ := map_ok h
        rw [hrest v' hv', rawText_decimal (hi index List.mem_cons_self) hr]
        rfl

/-- The anchor is made from what is left of tokens once all marks are resolved, decoded. -/
theorem decode_taken (tokens : List Token) (hf : ∀ t ∈ tokens, t.IsFree)
    (hi : ∀ index, .raw index ∈ tokens → index < stash.entries.length)
    (ho : ∀ index, .raw index ∈ tokens → Mark.opening ∉ stash.remains index) (v : Text)
    (h : Anchor.visible stash (write tokens) = .ok v) :
    Entity.decode (taken stash tokens) = .ok v := by
  unfold Anchor.visible at h
  cases hr : Anchor.resolveRaw stash (write tokens) with
  | error e =>
    rw [hr] at h
    cases h
  | ok resolved =>
    rw [hr, resolveRaw_write tokens hf hi resolved hr] at h
    have hu := unescape_marked stash.remains tokens hf fun index hm rest =>
      Mark.unescape_append _ rest (Mark.onlyAmpersands_of_not_mem (ho index hm))
    change ((Mark.unescape (tokens.flatMap (marked stash.remains))).bind Entity.decode) = _ at h
    rw [hu] at h
    exact h

end Token

end Changelog
