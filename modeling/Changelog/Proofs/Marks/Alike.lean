import Changelog.Proofs.Anchors.Markup
import Changelog.Proofs.Anchors.Places
import Changelog.Proofs.Marks.Changes
import Changelog.Tree.Layout

/-!
# Texts alike but for the numbers of marks

Two texts are alike when they differ in marks of stored markup only, and each such mark names in one
stash what the other names in the other.  No stage behind the reader looks at the numbers: as long as
the markup holds no marks itself, headings get the same anchors from both texts and pages show the
same in their place.
-/

namespace Changelog

open Text

/-- Two numbers under which the stashes hold the same markup, which holds no mark.  The numbers have
no more digits than can be read. -/
structure Stash.SameEntry (s t : Stash) (n m : Nat) (markup : Text) : Prop where
  first : s.entries[n]? = some markup
  second : t.entries[m]? = some markup
  free : Mark.opening ∉ markup
  firstShort : (decimal n).length ≤ digitLimit
  secondShort : (decimal m).length ≤ digitLimit

/-- What follows the start of a mark that is no mark of stored markup: its first letter, or the number
of an escaped character and the end. -/
inductive Mark.Other : Text → Prop
  | letter {c : Char} (h : c = 'k' ∨ c = 'a') : Other [c]
  | escaped {c : Char} (h : c ≠ Mark.opening) : Other (decimal c.toNat ++ [Mark.closing])

/-- Texts that differ in the numbers of marks only. -/
inductive Text.Alike (s t : Stash) : Text → Text → Prop
  | nil : Alike s t [] []
  | char {c : Char} {cs ds : Text} (hc : c ≠ Mark.opening) (h : Alike s t cs ds) :
    Alike s t (c :: cs) (c :: ds)
  | other {body cs ds : Text} (hb : Mark.Other body) (h : Alike s t cs ds) :
    Alike s t (Mark.opening :: (body ++ cs)) (Mark.opening :: (body ++ ds))
  | raw {n m : Nat} {markup cs ds : Text} (hm : s.SameEntry t n m markup) (h : Alike s t cs ds) :
    Alike s t (Mark.raw n ++ cs) (Mark.raw m ++ ds)

variable {s t : Stash}

namespace Mark

/-! ### One mark -/

theorem Other.inner {body : Text} (h : Other body) : ∀ c ∈ body, isInner c = true := by
  cases h with
  | letter hc =>
    refine List.forall_mem_singleton.mpr ?_
    rcases hc with rfl | rfl <;> decide
  | escaped hc => exact (Body.escaped hc : Body 0 _).inner_closed

theorem Other.opening_not_mem {body : Text} (h : Other body) : opening ∉ body := fun hm =>
  ne_of_isInner (h.inner _ hm) (by decide) rfl

theorem Other.readRaw? {body : Text} (h : Other body) (rest : Text) :
    readRaw? (opening :: (body ++ rest)) = none := by
  cases h with
  | letter hc => rcases hc with rfl | rfl <;> rfl
  | @escaped c _ =>
    rw [List.append_assoc, List.singleton_append, ← escaped_append]
    exact readRaw?_escaped c.toNat rest

/-- What follows the start of a mark of stored markup. -/
def rawBody (n : Nat) : Text :=
  rawWord ++ decimal n ++ [closing]

theorem raw_eq (n : Nat) (cs : Text) : raw n ++ cs = opening :: (rawBody n ++ cs) :=
  rfl

theorem inner_rawBody (n : Nat) : ∀ c ∈ rawBody n, isInner c = true :=
  (Body.raw (Nat.zero_le n)).inner_closed

theorem unescape_char {c : Char} (h : c ≠ opening) (rest : Text) :
    unescape (c :: rest) = (unescape rest).map (c :: ·) :=
  replaceAll?_keep c rest (by rw [readEscaped?_of_ne rest h]; rfl)

theorem unescape_letter {c : Char} (h : c = 'k' ∨ c = 'a') (rest : Text) :
    unescape (opening :: c :: rest) = (unescape rest).map (opening :: c :: ·) := by
  have hmark : readEscaped? (opening :: c :: rest) = none := by
    rcases h with rfl | rfl <;> rfl
  have hc : c ≠ opening := by
    rcases h with rfl | rfl <;> decide
  have hfirst : unescape (opening :: c :: rest) = (unescape (c :: rest)).map (opening :: ·) :=
    replaceAll?_keep opening _ (by rw [hmark]; rfl)
  rw [hfirst, unescape_char hc]
  cases unescape rest with
  | error e => rfl
  | ok v => rfl

end Mark

namespace Text.Alike

variable {cs ds : Text}

theorem front {part : Text} (hp : Mark.opening ∉ part) (h : Alike s t cs ds) :
    Alike s t (part ++ cs) (part ++ ds) := by
  induction part with
  | nil => exact h
  | cons c part ih =>
    rw [List.mem_cons, not_or] at hp
    exact .char (Ne.symm hp.1) (ih hp.2)

theorem same {part : Text} (hp : Mark.opening ∉ part) : Alike s t part part := by
  have h := (nil : Alike s t [] []).front hp
  rwa [List.append_nil] at h

theorem append {cs' ds' : Text} (h : Alike s t cs ds) (h' : Alike s t cs' ds') :
    Alike s t (cs ++ cs') (ds ++ ds') := by
  induction h with
  | nil => exact h'
  | char hc _ ih => exact .char hc ih
  | other hb _ ih =>
    rw [List.cons_append, List.cons_append, List.append_assoc, List.append_assoc]
    exact .other hb ih
  | raw hm _ ih =>
    rw [List.append_assoc, List.append_assoc]
    exact .raw hm ih

/-! ### Cutting and escaping -/

theorem spanWhile {p : Char → Bool} (hp : p Mark.opening = false) (h : Alike s t cs ds) :
    (spanWhile p cs).1 = (spanWhile p ds).1 ∧
      Alike s t (Text.spanWhile p cs).2 (Text.spanWhile p ds).2 := by
  have hstop (more : Text) : Text.spanWhile p (Mark.opening :: more) =
      ([], Mark.opening :: more) := by
    simp only [Text.spanWhile, hp, Bool.false_eq_true, if_false]
  induction h with
  | nil => exact ⟨rfl, .nil⟩
  | @char c cs ds hc h ih =>
    unfold Text.spanWhile
    split
    · exact ⟨congrArg (c :: ·) ih.1, ih.2⟩
    · exact ⟨rfl, .char hc h⟩
  | other hb h _ =>
    rw [hstop, hstop]
    exact ⟨rfl, .other hb h⟩
  | raw hm h _ =>
    rw [Mark.raw_eq, Mark.raw_eq, hstop, hstop]
    exact ⟨rfl, .raw hm h⟩

theorem head? (h : Alike s t cs ds) : cs.head? = ds.head? := by
  cases h <;> rfl

/-- Whether a semicolon follows some characters of a class. -/
def closesRun (p : Char → Bool) (cs : Text) : Bool :=
  !(Text.spanWhile p cs).1.isEmpty && (Text.spanWhile p cs).2.head? == some ';'

theorem closesRun_eq {p : Char → Bool} (hp : p Mark.opening = false) (h : Alike s t cs ds) :
    closesRun p cs = closesRun p ds := by
  have hspan := h.spanWhile hp
  unfold closesRun
  rw [hspan.1, hspan.2.head?]

theorem closesReference_sign (c : Char) (cs : Text) : Escape.closesReference ('#' :: c :: cs) =
    (closesRun isAsciiDigit (c :: cs) || (c == 'x' || c == 'X') && closesRun isHexDigit cs) :=
  rfl

theorem closesReference_of_ne {c : Char} (h : c ≠ '#') (cs : Text) :
    Escape.closesReference (c :: cs) = closesRun Escape.isNameLetter (c :: cs) := by
  unfold Escape.closesReference
  split
  · next heq =>
    cases heq
    exact absurd rfl h
  · rfl

theorem closesReference (h : Alike s t cs ds) :
    Escape.closesReference cs = Escape.closesReference ds := by
  have hword := h.closesRun_eq (p := Escape.isNameLetter) (by decide)
  cases h with
  | nil => rfl
  | @char c cs ds hc h =>
    by_cases hsign : c = '#'
    · subst hsign
      have hdigits := h.closesRun_eq (p := isAsciiDigit) (by decide)
      cases h with
      | nil => rfl
      | char hx h =>
        rw [closesReference_sign, closesReference_sign, hdigits,
          h.closesRun_eq (p := isHexDigit) (by decide)]
      | other hb h => rfl
      | raw hm h => rfl
    · rw [closesReference_of_ne hsign, closesReference_of_ne hsign, hword]
  | other hb h => exact hword
  | raw hm h => exact hword

theorem characters (inValue : Bool) (h : Alike s t cs ds) :
    Alike s t (Escape.characters inValue cs) (Escape.characters inValue ds) := by
  have hspares := Mark.spares_characters inValue
  have hmark {body : Text} (hb : ∀ c ∈ body, Mark.isInner c = true) (rest : Text) :
      Escape.characters inValue (Mark.opening :: (body ++ rest)) =
        Mark.opening :: (body ++ Escape.characters inValue rest) := by
    show Mark.opening :: Escape.characters inValue (body ++ rest) = _
    rw [hspares.append hb]
  induction h with
  | nil => exact .nil
  | @char c cs ds hc h ih =>
    obtain ⟨image, himage, hfree⟩ := Mark.characters_cons inValue c cs
    have hfree := hfree.resolve_left fun hm => hc hm.1
    have hother : Escape.characters inValue (c :: ds) =
        image ++ Escape.characters inValue ds := by
      rw [Escape.characters] at himage ⊢
      rw [h.closesReference] at himage
      exact congrArg (· ++ Escape.characters inValue ds) (List.append_cancel_right himage)
    rw [himage, hother]
    exact ih.front hfree
  | other hb _ ih =>
    rw [hmark hb.inner, hmark hb.inner]
    exact .other hb ih
  | @raw n m markup cs ds hm _ ih =>
    rw [Mark.raw_eq, Mark.raw_eq, hmark (Mark.inner_rawBody n), hmark (Mark.inner_rawBody m)]
    exact .raw hm ih

theorem isBlank (h : Alike s t cs ds) : isBlank cs = isBlank ds := by
  induction h with
  | nil => rfl
  | @char c cs ds _ _ ih => exact congrArg (isSpace c && ·) ih
  | other _ _ _ => rfl
  | raw _ _ _ => rfl

theorem trimStart (h : Alike s t cs ds) : Alike s t (trimStart cs) (trimStart ds) := by
  induction h with
  | nil => exact .nil
  | @char c cs ds hc h ih =>
    unfold Text.trimStart at ih ⊢
    rw [List.dropWhile_cons, List.dropWhile_cons]
    split
    · exact ih
    · exact .char hc h
  | other hb h _ => exact .other hb h
  | raw hm h _ => exact .raw hm h

theorem trimEnd_front (part : Text) (hp : ∀ c ∈ part, isSpace c = false) (rest : Text) :
    Text.trimEnd (part ++ rest) = part ++ Text.trimEnd rest := by
  induction part with
  | nil => rfl
  | cons c part ih =>
    obtain ⟨hc, hothers⟩ := List.forall_mem_cons.mp hp
    have hcons := trimEnd_append hc [] (part ++ rest)
    rwa [List.nil_append, List.nil_append, ih hothers] at hcons

theorem trimEnd_space {c : Char} (hc : isSpace c = true) (cs : Text) :
    Text.trimEnd (c :: cs) = if Text.trimEnd cs = [] then [] else c :: Text.trimEnd cs := by
  unfold Text.trimEnd dropEndWhile
  rw [List.reverse_cons, List.dropWhile_append]
  cases List.dropWhile isSpace cs.reverse with
  | nil => simp [hc]
  | cons d more => simp

theorem trimEnd (h : Alike s t cs ds) : Alike s t (trimEnd cs) (trimEnd ds) := by
  have hmark {body : Text} (hb : ∀ c ∈ body, Mark.isInner c = true) (rest : Text) :
      Text.trimEnd (Mark.opening :: (body ++ rest)) =
        Mark.opening :: (body ++ Text.trimEnd rest) := by
    refine trimEnd_front (Mark.opening :: body)
      (List.forall_mem_cons.mpr ⟨by decide, fun c hc => ?_⟩) rest
    refine Bool.eq_false_iff.mpr fun hs => ?_
    have hinner := hb c hc
    rw [Mark.isInner_of_isSpace hs] at hinner
    cases hinner
  induction h with
  | nil => exact .nil
  | @char c cs ds hc h ih =>
    cases hs : isSpace c with
    | false =>
      have hcons (cs : Text) : Text.trimEnd (c :: cs) = c :: Text.trimEnd cs :=
        trimEnd_front [c] (List.forall_mem_singleton.mpr hs) cs
      rw [hcons, hcons]
      exact .char hc ih
    | true =>
      rw [trimEnd_space hs, trimEnd_space hs]
      generalize Text.trimEnd cs = us, Text.trimEnd ds = vs at ih ⊢
      cases ih with
      | nil => exact .nil
      | char hd h => exact .char hc (.char hd h)
      | other hb h => exact .char hc (.other hb h)
      | raw hm h => exact .char hc (.raw hm h)
  | other hb h ih =>
    rw [hmark hb.inner, hmark hb.inner]
    exact .other hb ih
  | @raw n m markup cs ds hm h ih =>
    rw [Mark.raw_eq, Mark.raw_eq, hmark (Mark.inner_rawBody n), hmark (Mark.inner_rawBody m)]
    exact .raw hm ih

theorem trim (h : Alike s t cs ds) : Alike s t (trim cs) (trim ds) :=
  h.trimStart.trimEnd

/-! ### Marks of escaped characters -/

theorem unescape (h : Alike s t cs ds) : ∃ shown shown', Mark.unescape cs = .ok shown ∧
    Mark.unescape ds = .ok shown' ∧ Alike s t shown shown' := by
  induction h with
  | nil => exact ⟨[], [], rfl, rfl, .nil⟩
  | @char c cs ds hc _ ih =>
    obtain ⟨shown, shown', hs, hs', h⟩ := ih
    refine ⟨c :: shown, c :: shown', ?_, ?_, .char hc h⟩
    · rw [Mark.unescape_char hc, hs]
      rfl
    · rw [Mark.unescape_char hc, hs']
      rfl
  | @other body cs ds hb _ ih =>
    obtain ⟨shown, shown', hs, hs', h⟩ := ih
    cases hb with
    | letter hc =>
      refine ⟨_, _, ?_, ?_, .other (.letter hc) h⟩
      · rw [List.singleton_append, Mark.unescape_letter hc, hs]
        rfl
      · rw [List.singleton_append, Mark.unescape_letter hc, hs']
        rfl
    | @escaped c hc =>
      refine ⟨_, _, ?_, ?_, .char hc h⟩
      · exact (Mark.unescape_escaped c cs).trans (by rw [hs]; rfl)
      · exact (Mark.unescape_escaped c ds).trans (by rw [hs']; rfl)
  | @raw n m markup cs ds hm _ ih =>
    obtain ⟨shown, shown', hs, hs', h⟩ := ih
    refine ⟨_, _, ?_, ?_, .raw hm h⟩
    · rw [Mark.unescape_raw, hs]
      rfl
    · rw [Mark.unescape_raw, hs']
      rfl

theorem settleText (h : Alike s t cs ds) :
    Alike s t (Element.settleText cs) (Element.settleText ds) := by
  obtain ⟨shown, shown', hs, hs', h⟩ := h.unescape
  unfold Element.settleText
  rw [hs, hs']
  exact h

/-! ### Marks of stored markup -/

theorem resolveRaw_char {c : Char} (hc : c ≠ Mark.opening) (stash : Stash) (rest : Text) :
    Anchor.resolveRaw stash (c :: rest) = (Anchor.resolveRaw stash rest).map (c :: ·) :=
  replaceAll?_keep c rest (by rw [Mark.readRaw?_of_ne rest hc]; rfl)

theorem resolveRaw_other {body : Text} (hb : Mark.Other body) (stash : Stash) (rest : Text) :
    Anchor.resolveRaw stash (Mark.opening :: (body ++ rest)) =
      (Anchor.resolveRaw stash rest).map fun v => Mark.opening :: (body ++ v) := by
  have hbody : Anchor.resolveRaw stash (body ++ rest) =
      (Anchor.resolveRaw stash rest).map (body ++ ·) :=
    Token.resolveRaw_append body rest (Mark.onlyAmpersands_of_not_mem hb.opening_not_mem)
  unfold Anchor.resolveRaw at hbody ⊢
  rw [replaceAll?_keep _ _ (by rw [hb.readRaw?]; rfl), hbody]
  cases replaceAll? _ rest with
  | error e => rfl
  | ok v => rfl

/-- The anchor takes the same from texts that are alike. -/
theorem resolveRaw (h : Alike s t cs ds) : ∃ shown,
    Anchor.resolveRaw s cs = .ok shown ∧ Anchor.resolveRaw t ds = .ok shown := by
  induction h with
  | nil => exact ⟨[], rfl, rfl⟩
  | @char c cs ds hc _ ih =>
    obtain ⟨shown, hs, ht⟩ := ih
    refine ⟨c :: shown, ?_, ?_⟩
    · rw [resolveRaw_char hc, hs]
      rfl
    · rw [resolveRaw_char hc, ht]
      rfl
  | @other body cs ds hb _ ih =>
    obtain ⟨shown, hs, ht⟩ := ih
    refine ⟨Mark.opening :: (body ++ shown), ?_, ?_⟩
    · rw [resolveRaw_other hb, hs]
      rfl
    · rw [resolveRaw_other hb, ht]
      rfl
  | @raw n m markup cs ds hm _ ih =>
    obtain ⟨shown, hs, ht⟩ := ih
    refine ⟨Anchor.dropTags markup ++ shown, ?_, ?_⟩
    · rw [Anchor.resolveRaw_raw hm.firstShort hm.first, hs]
      rfl
    · rw [Anchor.resolveRaw_raw hm.secondShort hm.second, ht]
      rfl

theorem visible (h : Alike s t cs ds) : Anchor.visible s cs = Anchor.visible t ds := by
  obtain ⟨shown, hs, ht⟩ := h.resolveRaw
  unfold Anchor.visible
  rw [hs, ht]

theorem after? (lead : Text) (hl : Mark.opening ∉ lead) (h : Alike s t cs ds) :
    Option.Rel (Alike s t) (after? lead cs) (after? lead ds) := by
  induction lead generalizing cs ds with
  | nil => exact .some h
  | cons l lead ih =>
    rw [List.mem_cons, not_or] at hl
    have hnone (more : Text) : Text.after? (l :: lead) (Mark.opening :: more) = none :=
      if_neg (Ne.symm hl.1)
    cases h with
    | nil => exact .none
    | @char c cs ds hc h =>
      unfold Text.after?
      split
      · exact ih hl.2 h
      · exact .none
    | other hb h =>
      rw [hnone, hnone]
      exact .none
    | raw hm h =>
      rw [Mark.raw_eq, Mark.raw_eq, hnone, hnone]
      exact .none

/-- Two marks that are read name the same, and what is behind them is alike. -/
def SameMark (s t : Stash) (a b : Text × Text) : Prop :=
  ∃ n m markup, s.SameEntry t n m markup ∧ a.1 = decimal n ∧ b.1 = decimal m ∧ Alike s t a.2 b.2

theorem readRaw? (h : Alike s t cs ds) :
    Option.Rel (SameMark s t) (Mark.readRaw? cs) (Mark.readRaw? ds) := by
  cases h with
  | nil => exact .none
  | char hc h =>
    rw [Mark.readRaw?_of_ne _ hc, Mark.readRaw?_of_ne _ hc]
    exact .none
  | other hb h =>
    rw [hb.readRaw?, hb.readRaw?]
    exact .none
  | raw hm h =>
    rw [Mark.readRaw?_raw, Mark.readRaw?_raw]
    exact .some ⟨_, _, _, hm, rfl, rfl, h⟩

theorem readStored? (h : Alike s t cs ds) :
    Option.Rel (fun a b => a.1 = b.1 ∧ SameMark s t a.2 b.2)
      (Restore.readStored? cs) (Restore.readStored? ds) := by
  have hbare : Option.Rel (fun a b => a.1 = b.1 ∧ SameMark s t a.2 b.2)
      ((Mark.readRaw? cs).map fun r => (false, r.1, r.2))
      ((Mark.readRaw? ds).map fun r => (false, r.1, r.2)) := by
    have hraw := h.readRaw?
    generalize Mark.readRaw? cs = x, Mark.readRaw? ds = y at hraw ⊢
    cases hraw with
    | none => exact .none
    | some hmark => exact .some ⟨rfl, hmark⟩
  have hopen := h.after? "<p>".toList (by decide)
  unfold Restore.readStored?
  generalize Text.after? "<p>".toList cs = x, Text.after? "<p>".toList ds = y at hopen ⊢
  cases hopen with
  | none => exact hbare
  | @some cs ds hinner =>
    have hraw := hinner.readRaw?
    dsimp only [Option.bind_some]
    generalize Mark.readRaw? cs = x, Mark.readRaw? ds = y at hraw ⊢
    cases hraw with
    | none => exact hbare
    | @some a b hmark =>
      obtain ⟨n, m, markup, hm, hn, hn', hrest⟩ := hmark
      have hclose := hrest.after? "</p>".toList (by decide)
      dsimp only [Option.bind_some]
      generalize Text.after? "</p>".toList a.2 = x, Text.after? "</p>".toList b.2 = y at hclose ⊢
      cases hclose with
      | none => exact hbare
      | some hleft => exact .some ⟨rfl, n, m, markup, hm, hn, hn', hleft⟩

end Text.Alike

namespace Restore

theorem recognise_stored {stash : Stash} {cs rest markup : Text} {alone : Bool} {n : Nat}
    (hread : readStored? cs = some (alone, decimal n, rest))
    (hentry : stash.entries[n]? = some markup) (hfree : Mark.opening ∉ markup) (depth : Nat) :
    recognise stash depth cs =
      some (if alone && !isBlockMarkup markup then "<p>".toList ++ markup ++ "</p>".toList
        else markup, rest) := by
  have hshown : Mark.opening ∉ (if alone && !isBlockMarkup markup then
      "<p>".toList ++ markup ++ "</p>".toList else markup) := by
    split
    · simp only [List.mem_append, not_or]
      exact ⟨⟨by decide, hfree⟩, by decide⟩
    · exact hfree
  unfold recognise
  rw [hread]
  dsimp only
  rw [digitsValue_decimal, hentry]
  dsimp only
  rw [within_of_not_mem depth _ hshown]

end Restore

namespace Text.Alike

variable {cs ds : Text}

/-- Texts that begin with no mark of stored markup begin with the same character. -/
theorem cases_step (h : Alike s t cs ds) (hr : Restore.readStored? cs = none) :
    cs = [] ∧ ds = [] ∨
      ∃ c cs' ds', cs = c :: cs' ∧ ds = c :: ds' ∧ Alike s t cs' ds' := by
  cases h with
  | nil => exact Or.inl ⟨rfl, rfl⟩
  | char hc h => exact Or.inr ⟨_, _, _, rfl, rfl, h⟩
  | other hb h => exact Or.inr ⟨_, _, _, rfl, rfl, h.front hb.opening_not_mem⟩
  | raw hm h =>
    rw [Restore.readStored?_raw] at hr
    cases hr

/-- Pages show the same in place of texts that are alike. -/
theorem within (depth depth' : Nat) (h : Alike s t cs ds) :
    Restore.within s (depth + 1) cs = Restore.within t (depth' + 1) ds := by
  rw [Restore.within_succ, Restore.within_succ]
  -- On the length: behind a paragraph that holds a mark alone, its end is passed as well.
  induction hn : cs.length using Nat.strongRecOn generalizing cs ds with
  | ind size ih =>
    have hstored := h.readStored?
    generalize hx : Restore.readStored? cs = x, hy : Restore.readStored? ds = y at hstored
    cases hstored with
    | some hmark =>
      obtain ⟨halone, n, m, markup, hm, hdigits, hdigits', hrest⟩ := hmark
      next a b =>
      obtain ⟨alone, digits, rest⟩ := a
      obtain ⟨alone', digits', rest'⟩ := b
      cases halone
      cases hdigits
      cases hdigits'
      have hlt := Restore.readStored?_lt hx
      rw [replaceAll_read (Restore.reads_recognise depth)
          (Restore.recognise_stored hx hm.first hm.free depth),
        replaceAll_read (Restore.reads_recognise depth')
          (Restore.recognise_stored hy hm.second hm.free depth'),
        ih rest.length (hn ▸ hlt) hrest rfl]
    | none =>
      rcases h.cases_step hx with ⟨rfl, rfl⟩ | ⟨c, cs', ds', rfl, rfl, htail⟩
      · rfl
      · rw [replaceAll_keep c cs' (Restore.recognise_none hx),
          replaceAll_keep c ds' (Restore.recognise_none hy),
          ih cs'.length (hn ▸ Nat.lt_succ_self _) htail rfl]

end Text.Alike

end Changelog
