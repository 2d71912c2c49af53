import Changelog.Proofs.Anchors.Letters
import Changelog.Proofs.Anchors.Pages

/-!
# Ampersands

The writer escapes an ampersand unless a closed reference begins with it, while the anchor decodes
the text as it is.  The two agree where each ampersand begins a closed reference within its own
text, or stands for itself in front of all the text that follows it.  They differ in the characters
of mail addresses, which the anchor takes in their disguise.
-/

namespace Changelog

open Text

/-- Whether an ampersand in front of a text is read as an ampersand. -/
def StandsForItself (cs : Text) : Prop :=
  Entity.decode ('&' :: cs) = (Entity.decode cs).map ('&' :: ·)

namespace Token

/-- The character of a token, if it has one. -/
def char? : Token → Option Char
  | .char c => some c
  | .escaped c => some c
  | .disguised _ => none
  | .raw _ => none

/-- Whether a token is a character of a mail address. -/
def isDisguised : Token → Bool
  | .disguised _ => true
  | _ => false

/-- How many characters of mail addresses a text holds. -/
def disguises (tokens : List Token) : Nat :=
  tokens.countP isDisguised

theorem disguises_cons {t : Token} (h : t.isDisguised = false) (tokens : List Token) :
    disguises (t :: tokens) = disguises tokens :=
  List.countP_cons_of_neg (by rw [h]; exact Bool.false_ne_true)

/-- Whether each ampersand of a text is read as the writer of the page means it, when the anchor
takes `rest` from what follows the text. -/
def Calm (stash : Stash) : List Token → Text → Prop
  | [], _ => True
  | t :: tokens, rest =>
    (t.char? = some '&' →
      Escape.closesReference (settled tokens) = true ∨
        StandsForItself (taken stash tokens ++ rest)) ∧
      Calm stash tokens rest

variable {stash : Stash}

theorem Calm.suffix (used tokens : List Token) (rest : Text)
    (h : Calm stash (used ++ tokens) rest) : Calm stash tokens rest := by
  induction used with
  | nil => exact h
  | cons t used ih => exact ih h.2

/-! ### Characters among the tokens -/

theorem plain_char {t : Token} {c : Char} (h : t.char? = some c) (image : Nat → Text) :
    plain image t = [c] := by
  cases t with
  | char d =>
    cases Option.some.inj h
    rfl
  | escaped d =>
    cases Option.some.inj h
    rfl
  | disguised d => cases h
  | raw index => cases h

theorem page_char {t : Token} {c : Char} (h : t.char? = some c) (amp : Text)
    (image : Nat → Text) (tokens : List Token) :
    page amp image (t :: tokens) = Escape.image c (settled tokens) ++ page amp image tokens := by
  cases t with
  | char d =>
    cases Option.some.inj h
    rfl
  | escaped d =>
    cases Option.some.inj h
    rfl
  | disguised d => cases h
  | raw index => cases h

theorem isDisguised_char {t : Token} {c : Char} (h : t.char? = some c) :
    t.isDisguised = false := by
  cases t with
  | char d => rfl
  | escaped d => rfl
  | disguised d => cases h
  | raw index => rfl

/-- A token that is no character is a mark, or begins with one. -/
theorem plain_mark {t : Token} (h : t.char? = none) :
    ∃ others, plain Mark.raw t = Mark.opening :: others := by
  cases t with
  | char c => cases h
  | escaped c => cases h
  | disguised c =>
    rw [plain, Span.disguise_eq, Mark.ampersand]
    exact ⟨_, rfl⟩
  | raw index => exact ⟨_, rfl⟩

/-! ### References within a text -/

theorem spanWhile_closed {p : Char → Bool} {cs : Text}
    (h : (!(spanWhile p cs).1.isEmpty && (spanWhile p cs).2.head? == some ';') = true) :
    ∃ front rest, front ≠ [] ∧ cs = front ++ ';' :: rest ∧ ∀ c ∈ front, p c = true := by
  rw [Bool.and_eq_true, Bool.not_eq_true', beq_iff_eq] at h
  obtain ⟨hfront, hrest⟩ := h
  obtain ⟨rest, hr⟩ := List.head?_eq_some_iff.mp hrest
  refine ⟨(spanWhile p cs).1, rest, List.isEmpty_eq_false_iff.mp hfront, ?_, ?_⟩
  · rw [← hr, spanWhile_append]
  · exact List.all_eq_true.mp (spanWhile_all p cs)

/-- A text that closes a reference begins with the body of one. -/
theorem exists_body {cs : Text} (h : Escape.closesReference cs = true) :
    ∃ body rest, Entity.IsBody body ∧ cs = body ++ ';' :: rest := by
  unfold Escape.closesReference at h
  dsimp only at h
  split at h
  · next ds =>
    rw [Bool.or_eq_true] at h
    rcases h with h | h
    · obtain ⟨front, rest, hne, rfl, hall⟩ := spanWhile_closed h
      exact ⟨'#' :: front, rest, Or.inr (Or.inl ⟨front, hne, rfl, hall⟩), rfl⟩
    · split at h
      · next x hs =>
        rw [Bool.and_eq_true, Bool.or_eq_true, beq_iff_eq, beq_iff_eq] at h
        obtain ⟨front, rest, hne, rfl, hall⟩ := spanWhile_closed h.2
        exact ⟨'#' :: x :: front, rest, Or.inr (Or.inr ⟨x, front, hne, rfl, h.1, hall⟩), rfl⟩
      · cases h
  · obtain ⟨front, rest, hne, rfl, hall⟩ := spanWhile_closed h
    exact ⟨front, rest, Or.inl ⟨hne, hall⟩, rfl⟩

/-- Characters that are written as they stand and begin no mark. -/
def IsQuiet (cs : Text) : Prop :=
  ∀ c ∈ cs, c ≠ Mark.opening ∧ c ≠ '&' ∧ c ≠ '<' ∧ c ≠ '>'

theorem isQuiet_closed {body : Text} (h : Entity.IsBody body) : IsQuiet (body ++ [';']) := by
  intro c hc
  have hnot (d : Char) (hm : d ∉ body) (hs : d ≠ ';') : c ≠ d := by
    intro he
    rw [he, List.mem_append, List.mem_singleton] at hc
    rcases hc with hc | hc
    · exact hm hc
    · exact hs hc
  have hbody (d : Char) (hh : d ≠ '#') (ha : Escape.isNameLetter d = false) (hx : isHexDigit d = false) :
      d ∉ body := Entity.not_mem_body h hh ha hx
  refine ⟨hnot _ (hbody _ ?_ ?_ ?_) ?_, hnot _ (hbody _ ?_ ?_ ?_) ?_, hnot _ (hbody _ ?_ ?_ ?_) ?_,
    hnot _ (hbody _ ?_ ?_ ?_) ?_⟩ <;> decide

/-- A quiet front of a settled text is made of tokens of its own. -/
theorem exists_suffix (front more : Text) (hq : IsQuiet front) (tokens : List Token)
    (h : settled tokens = front ++ more) :
    ∃ used tokens', tokens = used ++ tokens' ∧ disguises tokens = disguises tokens' ∧
      (∀ amp image, page amp image tokens = front ++ page amp image tokens') ∧
      ∀ image, tokens.flatMap (plain image) = front ++ tokens'.flatMap (plain image) := by
  induction front generalizing tokens with
  | nil => exact ⟨[], tokens, rfl, rfl, fun _ _ => rfl, fun _ => rfl⟩
  | cons d front ih =>
    obtain ⟨⟨ho, ha, hl, hg⟩, hfront⟩ := List.forall_mem_cons.mp hq
    cases tokens with
    | nil => cases h
    | cons t tokens =>
      rw [settled, List.flatMap_cons, List.cons_append] at h
      cases hc : t.char? with
      | none =>
        obtain ⟨others, hmark⟩ := plain_mark hc
        rw [hmark, List.cons_append, List.cons.injEq] at h
        exact absurd h.1.symm ho
      | some c =>
        rw [plain_char hc, List.singleton_append, List.cons.injEq] at h
        obtain ⟨rfl, hsettled⟩ := h
        obtain ⟨used, tokens', hsplit, hcount, hpage, hplain⟩ := ih hfront tokens hsettled
        refine ⟨t :: used, tokens', by rw [hsplit, List.cons_append], ?_, ?_, ?_⟩
        · rw [disguises_cons (isDisguised_char hc), hcount]
        · intro amp image
          rw [page_char hc, Escape.image_of_ne _ ha hl hg, hpage amp image]
          rfl
        · intro image
          rw [List.flatMap_cons, plain_char hc, hplain image]
          rfl

/-! ### Texts decoded -/

theorem reveals_cons {count : Nat} {cs ds cs' ds' : Text} {c : Char}
    (h : Entity.decode cs' = (Entity.decode cs).map (c :: ·))
    (h' : Entity.decode ds' = (Entity.decode ds).map (c :: ·))
    (hr : Reveals count (Entity.decode cs) (Entity.decode ds)) :
    Reveals count (Entity.decode cs') (Entity.decode ds') := by
  rw [h, h']
  exact hr.map [c]

/-- Whether the anchor takes from a text what a reader of the page sees of it, but for characters of
mail addresses.  The anchor takes `rest` from what follows, of which the reader sees `rest'`. -/
def Shows (stash : Stash) (count : Nat) (rest rest' : Text) (tokens : List Token) : Prop :=
  Reveals (disguises tokens + count) (Entity.decode (taken stash tokens ++ rest))
    (Entity.decode (page ['&'] stash.remains tokens ++ rest'))

variable {count : Nat} {rest rest' : Text}

/-- An ampersand in front of a closed reference is left behind with the reference. -/
theorem shows_reference (tokens : List Token)
    (hclosed : Escape.closesReference (settled tokens) = true)
    (h : ∀ used tokens', tokens = used ++ tokens' → Shows stash count rest rest' tokens') :
    Reveals (disguises tokens + count) (Entity.decode ('&' :: (taken stash tokens ++ rest)))
      (Entity.decode ('&' :: (page ['&'] stash.remains tokens ++ rest'))) := by
  obtain ⟨body, more, hbody, hsettled⟩ := exists_body hclosed
  obtain ⟨used, tokens', hsplit, hcount, hpage, hplain⟩ := exists_suffix
    (body ++ [';']) more (isQuiet_closed hbody) tokens
    (by rw [hsettled, List.append_assoc, List.singleton_append])
  obtain ⟨value, hvalue⟩ := Entity.decode_closed body hbody
  rw [hcount, taken, hplain, hpage, List.append_assoc, List.append_assoc, List.append_assoc,
    List.append_assoc, List.singleton_append, List.singleton_append, hvalue, hvalue]
  exact (h used tokens' hsplit).bind value

/-- A character in front of a text. -/
theorem shows_char {t : Token} {c : Char} (hchar : t.char? = some c) (tokens : List Token)
    (hcalm : Calm stash (t :: tokens) rest)
    (h : ∀ used tokens', tokens = used ++ tokens' → Shows stash count rest rest' tokens') :
    Shows stash count rest rest' (t :: tokens) := by
  have hrest := h [] tokens rfl
  rw [Shows, disguises_cons (isDisguised_char hchar), taken, List.flatMap_cons, plain_char hchar,
    page_char hchar, List.append_assoc, List.append_assoc, List.singleton_append]
  by_cases ha : c = '&'
  · subst ha
    cases hclosed : Escape.closesReference (settled tokens) with
    | true =>
      rw [Escape.image, if_pos rfl, hclosed, if_pos rfl, List.singleton_append]
      exact shows_reference tokens hclosed h
    | false =>
      have hself : StandsForItself (taken stash tokens ++ rest) := by
        rcases hcalm.1 hchar with hp | hp
        · rw [hclosed] at hp
          cases hp
        · exact hp
      have himage : Escape.image '&' (settled tokens) = "&amp;".toList := by
        rw [Escape.image, if_pos rfl, hclosed]
        rfl
      rw [himage]
      exact reveals_cons hself (Entity.decode_amp _) hrest
  · by_cases hl : c = '<'
    · subst hl
      exact reveals_cons (Entity.decode_keep '<' _ (by decide)) (Entity.decode_lt _) hrest
    · by_cases hg : c = '>'
      · subst hg
        exact reveals_cons (Entity.decode_keep '>' _ (by decide)) (Entity.decode_gt _) hrest
      · rw [Escape.image_of_ne _ ha hl hg, List.singleton_append]
        exact reveals_cons (Entity.decode_keep c _ ha) (Entity.decode_keep c _ ha) hrest

/-- A character of a mail address in front of a text. -/
theorem shows_disguised (c : Char) (tokens : List Token) (h : Shows stash count rest rest' tokens) :
    Shows stash count rest rest' (.disguised c :: tokens) := by
  obtain ⟨value, hletters, hvalue⟩ := Span.decode_code c
  have hplain : '&' ∉ Span.disguise c :=
    not_mem_disguise (by decide) (not_mem_code (by decide) (by decide) (by decide) (by decide))
  have hcount : disguises (.disguised c :: tokens) + count = disguises tokens + count + 1 := by
    rw [disguises, List.countP_cons_of_pos rfl, ← disguises]
    omega
  rw [Shows, hcount]
  show Reveals _ (Entity.decode (Span.disguise c ++ taken stash tokens ++ rest))
    (Entity.decode ('&' :: Span.code c ++ page ['&'] stash.remains tokens ++ rest'))
  rw [List.append_assoc, List.append_assoc, Entity.decode_append _ _ hplain, List.cons_append,
    hvalue]
  exact Reveals.disguise h hletters

/-- Stored markup in front of a text shows nothing, or one reference. -/
theorem shows_raw (index : Nat) (tokens : List Token) (hclear : stash.IsClear index)
    (h : Shows stash count rest rest' tokens) :
    Shows stash count rest rest' (.raw index :: tokens) := by
  rw [Shows, disguises_cons rfl]
  show Reveals _ (Entity.decode (stash.remains index ++ taken stash tokens ++ rest))
    (Entity.decode (stash.remains index ++ page ['&'] stash.remains tokens ++ rest'))
  rw [List.append_assoc, List.append_assoc]
  rcases hclear.remains_eq with he | ⟨body, hbody, he⟩
  · rw [he]
    exact h
  · obtain ⟨value, hvalue⟩ := Entity.decode_closed body hbody
    rw [he, List.cons_append, List.cons_append, List.append_assoc, List.append_assoc,
      List.singleton_append, List.singleton_append, hvalue, hvalue]
    exact Reveals.bind h value

/-- What the anchor takes from a text decodes to what a reader of the page sees of it, but for
characters of mail addresses. -/
theorem decode_page (tokens : List Token)
    (hc : ∀ index, .raw index ∈ tokens → stash.IsClear index) (hcalm : Calm stash tokens rest)
    (h : Reveals count (Entity.decode rest) (Entity.decode rest')) :
    Shows stash count rest rest' tokens := by
  -- A closed reference is left behind at once, so the induction is on the number of tokens.
  induction hn : tokens.length using Nat.strongRecOn generalizing tokens with
  | ind n ih =>
    cases tokens with
    | nil =>
      rw [Shows, disguises, List.countP_nil, Nat.zero_add]
      exact h
    | cons t tokens =>
      have hbelow (used tokens' : List Token) (hsplit : tokens = used ++ tokens') :
          Shows stash count rest rest' tokens' := by
        have hlen : tokens'.length < n := by
          rw [← hn, hsplit, List.length_cons, List.length_append]
          omega
        have hmem : ∀ index, .raw index ∈ tokens' → stash.IsClear index := fun index hm =>
          hc index (List.mem_cons_of_mem t (hsplit ▸ List.mem_append_right used hm))
        exact ih tokens'.length hlen tokens' hmem
          (Calm.suffix used tokens' rest (hsplit ▸ hcalm.2)) rfl
      cases t with
      | char c => exact shows_char rfl tokens hcalm hbelow
      | escaped c => exact shows_char rfl tokens hcalm hbelow
      | disguised c => exact shows_disguised c tokens (hbelow [] tokens rfl)
      | raw index =>
        exact shows_raw index tokens (hc index List.mem_cons_self) (hbelow [] tokens rfl)

/-! ### Several texts -/

/-- Whether the ampersands of all texts are read as the writer of the page means them. -/
def AllCalm (stash : Stash) : List (List Token) → Prop
  | [] => True
  | tokens :: texts => Calm stash tokens (taken stash texts.flatten) ∧ AllCalm stash texts

theorem taken_append (tokens more : List Token) :
    taken stash (tokens ++ more) = taken stash tokens ++ taken stash more :=
  List.flatMap_append

/-- The texts of an element decode, one after the other, to what a reader of the page sees, but for
characters of mail addresses. -/
theorem decode_pages (texts : List (List Token))
    (hc : ∀ index, .raw index ∈ texts.flatten → stash.IsClear index)
    (hcalm : AllCalm stash texts) :
    Reveals (disguises texts.flatten) (Entity.decode (taken stash texts.flatten))
      (Entity.decode (texts.flatMap (page ['&'] stash.remains))) := by
  induction texts with
  | nil => exact Reveals.refl _
  | cons tokens texts ih =>
    rw [List.flatten_cons] at hc
    have hrest := ih (fun index hm => hc index (List.mem_append_right _ hm)) hcalm.2
    rw [List.flatten_cons, taken_append, List.flatMap_cons, disguises, List.countP_append,
      ← disguises, ← disguises]
    exact decode_page tokens (fun index hm => hc index (List.mem_append_left _ hm)) hcalm.1 hrest

end Token

end Changelog
