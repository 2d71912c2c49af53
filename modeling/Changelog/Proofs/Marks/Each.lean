import Changelog.Markdown.Escape
import Changelog.Markdown.Span.Code
import Changelog.Proofs.Anchors.Tokens

/-!
# Marks that are whole

No source can write a mark, but a mark is of use only as long as nothing takes a part of it away.
Here a text is looked at from the start of each of its marks: what follows the start says whether the
mark is whole.  Texts are put together, cut and searched, and these properties last.
-/

namespace Changelog.Mark

open Text

/-- Behind every start of a mark the text goes on as `begins` asks. -/
def Each (begins : Text → Prop) : Text → Prop
  | [] => True
  | c :: cs => (c = opening → begins cs) ∧ Each begins cs

section

variable {begins begins' : Text → Prop}

theorem each_of_not_mem {cs : Text} (h : opening ∉ cs) : Each begins cs := by
  induction cs with
  | nil => trivial
  | cons c cs ih =>
    rw [List.mem_cons, not_or] at h
    exact ⟨fun hc => absurd hc.symm h.1, ih h.2⟩

theorem Each.imp (h : ∀ cs, begins cs → begins' cs) {cs : Text} (hc : Each begins cs) :
    Each begins' cs := by
  induction cs with
  | nil => trivial
  | cons c cs ih => exact ⟨fun ho => h cs (hc.1 ho), ih hc.2⟩

theorem Each.append {ds : Text} (h : ∀ front, begins front → begins' (front ++ ds)) {cs : Text}
    (hc : Each begins cs) (hd : Each begins' ds) : Each begins' (cs ++ ds) := by
  induction cs with
  | nil => exact hd
  | cons c cs ih => exact ⟨fun ho => h cs (hc.1 ho), ih hc.2⟩

theorem Each.suffix {cs ds : Text} (h : Each begins cs) (hs : ds <:+ cs) : Each begins ds := by
  obtain ⟨before, rfl⟩ := hs
  induction before with
  | nil => exact h
  | cons c before ih => exact ih h.2

/-- A text may be cut where no mark is, as far as the text behind the cut tells. -/
theorem Each.cut {rest : Text} (h : ∀ front, begins (front ++ rest) → begins' front) {cs : Text}
    (hc : Each begins (cs ++ rest)) : Each begins' cs := by
  induction cs with
  | nil => trivial
  | cons c cs ih => exact ⟨fun ho => h cs (hc.1 ho), ih hc.2⟩

/-- What `recognise` reads gives way to values, and what followed the start of a mark still does as
it is asked. -/
theorem Each.replaceAll (part : Text → Prop) {recognise : Text → Option (Text × Text)}
    (hr : Reads recognise)
    (hread : ∀ cs value rest, recognise cs = some (value, rest) → Each part value ∧ rest <:+ cs)
    (hpart : ∀ front rest, part front → begins' (front ++ rest))
    (hkeep : ∀ cs, begins cs → begins' (Text.replaceAll recognise cs)) {cs : Text}
    (h : Each begins cs) : Each begins' (Text.replaceAll recognise cs) := by
  -- On the length, since what is recognised is passed as a whole.
  induction hn : cs.length using Nat.strongRecOn generalizing cs with
  | ind n ih =>
    cases cs with
    | nil => trivial
    | cons c cs =>
      cases hc : recognise (c :: cs) with
      | none =>
        rw [replaceAll_keep c cs hc]
        exact ⟨fun ho => hkeep cs (h.1 ho), ih cs.length (hn ▸ Nat.lt_succ_self _) h.2 rfl⟩
      | some r =>
        obtain ⟨value, rest⟩ := r
        obtain ⟨hvalue, hsuffix⟩ := hread _ _ _ hc
        rw [replaceAll_read hr hc]
        exact Each.append (fun front => hpart front _) hvalue
          (ih rest.length (hn ▸ hr _ _ _ hc) (h.suffix hsuffix) rfl)

/-- The same for a replacement whose values may fail, when it does not. -/
theorem Each.replaceAll? {ε : Type} (part : Text → Prop)
    {recognise : Text → Option (Except ε Text × Text)} (hr : Reads recognise)
    (hread : ∀ cs value rest, Each begins cs → recognise cs = some (.ok value, rest) →
      Each part value ∧ rest <:+ cs)
    (hpart : ∀ front rest, part front → begins' (front ++ rest))
    (hkeep : ∀ cs shown, begins cs → Text.replaceAll? recognise cs = .ok shown → begins' shown)
    {cs shown : Text} (h : Each begins cs) (hs : Text.replaceAll? recognise cs = .ok shown) :
    Each begins' shown := by
  induction hn : cs.length using Nat.strongRecOn generalizing cs shown with
  | ind n ih =>
    cases cs with
    | nil =>
      cases hs
      trivial
    | cons c cs =>
      cases hc : recognise (c :: cs) with
      | none =>
        rw [replaceAll?_keep c cs hc] at hs
        obtain ⟨behind, hbehind, rfl⟩ := Text.map_ok hs
        exact ⟨fun ho => hkeep cs behind (h.1 ho) hbehind,
          ih cs.length (hn ▸ Nat.lt_succ_self _) h.2 hbehind rfl⟩
      | some r =>
        obtain ⟨value, rest⟩ := r
        rw [replaceAll?_read hr hc] at hs
        cases value with
        | error e => cases hs
        | ok value =>
          obtain ⟨behind, hbehind, rfl⟩ := Text.map_ok hs
          obtain ⟨hvalue, hsuffix⟩ := hread _ _ _ h hc
          exact Each.append (fun front => hpart front _) hvalue
            (ih rest.length (hn ▸ hr _ _ _ hc) (h.suffix hsuffix) hbehind rfl)

end

/-! ### What follows the start of a mark -/

/-- A character that may stand in a mark behind its start: a letter of the word of stored markup, the
first letter of another word, a digit or its end. -/
def isInner (c : Char) : Bool :=
  rawWord.contains c || c == 'a' || isAsciiDigit c || c == closing

theorem isInner_of_isAsciiDigit {c : Char} (h : isAsciiDigit c = true) : isInner c = true := by
  unfold isInner
  rw [h, Bool.or_true, Bool.true_or]

theorem isInner_of_isSpace {c : Char} (h : isSpace c = true) : isInner c = false := by
  have hall : ∀ n ∈ spaceCodes, isInner (Char.ofNat n) = false := by decide
  have hc := hall c.toNat (List.contains_iff_mem.mp h)
  rwa [Char.ofNat_toNat] at hc

theorem ne_of_isInner {c d : Char} (h : isInner c = true) (hd : isInner d = false) : c ≠ d := by
  intro hc
  rw [hc, hd] at h
  cases h

/-- A class that holds all characters of marks, as a look at the ASCII characters shows. -/
theorem class_of_isInner {p : Char → Bool}
    (h : ((List.range 128).map Char.ofNat).all (fun c => !isInner c || p c) = true) :
    ∀ c, isInner c = true → p c = true := by
  intro c hc
  have hsmall : c.toNat < 128 := by
    unfold isInner at hc
    simp only [Bool.or_eq_true, beq_iff_eq] at hc
    rcases hc with ((hc | rfl) | hc) | rfl
    · have hall : rawWord.all (fun c => decide (c.toNat < 128)) = true := by rfl
      exact of_decide_eq_true (List.all_eq_true.mp hall c (List.contains_iff_mem.mp hc))
    · decide
    · unfold isAsciiDigit at hc
      rw [Bool.and_eq_true, decide_eq_true_eq, decide_eq_true_eq] at hc
      exact Nat.lt_of_le_of_lt (show c.toNat ≤ 0x39 from hc.2) (by decide)
    · decide
  have hp := List.all_eq_true.mp h c
    (List.mem_map.mpr ⟨c.toNat, List.mem_range.mpr hsmall, Char.ofNat_toNat c⟩)
  rwa [hc, Bool.not_true, Bool.false_or] at hp

/-- Nothing but digits. -/
def Digits (cs : Text) : Prop :=
  ∀ c ∈ cs, isAsciiDigit c = true

/-- What stands between the start and the end of a mark: the word of stored markup and its number,
which is `least` or more, or the number of an escaped character. -/
inductive Body (least : Nat) : Text → Prop
  | raw {n : Nat} (h : least ≤ n) : Body least (rawWord ++ decimal n)
  | escaped {c : Char} (h : c ≠ opening) : Body least (decimal c.toNat)

/-- A mark goes on with the first letter of its word, or with all that it holds and its end. -/
inductive Begun (least : Nat) : Text → Prop
  | word {c : Char} (h : c = 'k' ∨ c = 'a') (rest : Text) : Begun least (c :: rest)
  | whole {body : Text} (h : Body least body) (rest : Text) :
    Begun least (body ++ closing :: rest)

/-- The front of what a mark holds. -/
def Front (least : Nat) (cs : Text) : Prop :=
  ∃ body, Body least body ∧ cs <+: body

/-- Whether a mark goes on, or was cut by the end of an attribute. -/
def Quoted (least : Nat) (rest : Text) : Prop :=
  Begun least rest ∨ ∃ front more, Front least front ∧ rest = front ++ '"' :: more

section

variable (least : Nat)

/-- All marks of a text are whole. -/
def Whole : Text → Prop :=
  Each (Begun least)

/-- All marks of a text are whole, but for one that the end of the text may cut. -/
def Clipped : Text → Prop :=
  Each fun rest => Begun least rest ∨ Front least rest

/-- All marks of a text are whole, but for those that the end of an attribute cuts. -/
def Written : Text → Prop :=
  Each (Quoted least)

end

variable {least : Nat}

theorem digits_decimal (n : Nat) : Digits (decimal n) :=
  fun _ h => isAsciiDigit_of_mem_decimal h

theorem Digits.inner {cs : Text} (h : Digits cs) : ∀ c ∈ cs, isInner c = true :=
  fun c hc => isInner_of_isAsciiDigit (h c hc)

theorem Body.inner {body : Text} (h : Body least body) : ∀ c ∈ body, isInner c = true := by
  cases h with
  | @raw n _ =>
    have hword : ∀ c ∈ rawWord, isInner c = true := List.all_eq_true.mp (by rfl)
    exact List.forall_mem_append.mpr ⟨hword, (digits_decimal n).inner⟩
  | @escaped c _ => exact (digits_decimal c.toNat).inner

theorem Body.inner_closed {body : Text} (h : Body least body) :
    ∀ c ∈ body ++ [closing], isInner c = true :=
  List.forall_mem_append.mpr ⟨h.inner, List.forall_mem_singleton.mpr (by decide)⟩

theorem Body.ne_closing {body : Text} (h : Body least body) : ∀ c ∈ body, c ≠ closing := by
  have hdigits (n : Nat) : ∀ c ∈ decimal n, c ≠ closing := by
    intro c hc he
    have hd := digits_decimal n c hc
    rw [he] at hd
    revert hd
    decide
  have hword : rawWord.all (fun c => c != closing) = true := by rfl
  cases h with
  | @raw n _ =>
    refine List.forall_mem_append.mpr ⟨fun c hc => ?_, hdigits n⟩
    exact bne_iff_ne.mp (List.all_eq_true.mp hword c hc)
  | @escaped c _ => exact hdigits c.toNat

theorem Front.inner {front : Text} (h : Front least front) : ∀ c ∈ front, isInner c = true := by
  obtain ⟨body, hbody, hfront⟩ := h
  exact fun c hc => hbody.inner c (hfront.subset hc)

theorem front_nil : Front least [] :=
  ⟨_, .escaped (c := 'a') (by decide), List.nil_prefix⟩

theorem Front.ne_closing {front : Text} (h : Front least front) : ∀ c ∈ front, c ≠ closing := by
  obtain ⟨body, hbody, hfront⟩ := h
  exact fun c hc => hbody.ne_closing c (hfront.subset hc)

theorem Front.prefix {front cs : Text} (h : Front least (front ++ cs)) : Front least front := by
  obtain ⟨body, hbody, hfront⟩ := h
  exact ⟨body, hbody, (List.prefix_append front cs).trans hfront⟩

theorem Begun.append {front : Text} (h : Begun least front) (rest : Text) :
    Begun least (front ++ rest) := by
  cases h with
  | word hc more => exact .word hc (more ++ rest)
  | whole hbody more =>
    rw [List.append_assoc, List.cons_append]
    exact .whole hbody (more ++ rest)

/-- A text that goes on with characters of a mark and its end is cut behind that end, or before a
character of a mark. -/
theorem cases_cut_closed {body more front rest : Text} (hi : ∀ c ∈ body, isInner c = true)
    (h : front ++ rest = body ++ closing :: more) :
    (∃ left, front = body ++ closing :: left) ∨
      front <+: body ∧ ∃ c more, rest = c :: more ∧ isInner c = true := by
  rcases List.append_eq_append_iff.mp h with ⟨left, hleft, hrest⟩ | ⟨left, hfront, hrest⟩
  · refine Or.inr ⟨⟨left, hleft.symm⟩, ?_⟩
    cases left with
    | nil => exact ⟨closing, more, hrest, by decide⟩
    | cons d left =>
      refine ⟨d, left ++ closing :: more, hrest, hi d ?_⟩
      rw [hleft]
      exact List.mem_append_right _ List.mem_cons_self
  · cases left with
    | nil =>
      rw [List.append_nil] at hfront
      rw [hfront]
      exact Or.inr ⟨List.prefix_refl _, closing, more, hrest.symm, by decide⟩
    | cons d left =>
      obtain ⟨rfl, -⟩ := List.cons.inj hrest
      exact Or.inl ⟨left, hfront⟩

/-- What is left of the front of a mark when the text is cut. -/
theorem Begun.cases_cut {front rest : Text} (h : Begun least (front ++ rest)) :
    Begun least front ∨ Front least front ∧ ∃ c more, rest = c :: more ∧ isInner c = true := by
  generalize hcs : front ++ rest = cs at h
  cases h with
  | @word c hc more =>
    cases front with
    | nil =>
      refine Or.inr ⟨front_nil, c, more, hcs, ?_⟩
      rcases hc with rfl | rfl <;> decide
    | cons d front =>
      obtain ⟨rfl, -⟩ := List.cons.inj hcs
      exact Or.inl (.word hc front)
  | @whole body hbody more =>
    rcases cases_cut_closed hbody.inner hcs with ⟨left, rfl⟩ | ⟨hfront, hrest⟩
    · exact Or.inl (.whole hbody left)
    · exact Or.inr ⟨⟨body, hbody, hfront⟩, hrest⟩

/-- A text is cut behind its marks when no character of a mark follows. -/
theorem Whole.cut {cs rest : Text} (h : Whole least (cs ++ rest))
    (hr : ∀ c ∈ rest.head?, isInner c = false) : Whole least cs := by
  refine Each.cut ?_ h
  intro front hfront
  rcases hfront.cases_cut with hfront | ⟨-, c, more, rfl, hc⟩
  · exact hfront
  · rw [hr c rfl] at hc
    cases hc

theorem Whole.clipped {cs : Text} (h : Whole least cs) : Clipped least cs :=
  Each.imp (fun _ => Or.inl) h

theorem Whole.written {cs : Text} (h : Whole least cs) : Written least cs :=
  Each.imp (fun _ => Or.inl) h

theorem Whole.append {cs ds : Text} (h : Whole least cs) (h' : Whole least ds) :
    Whole least (cs ++ ds) :=
  Each.append (fun _ hf => hf.append ds) h h'

theorem Quoted.append {front : Text} (h : Quoted least front) (rest : Text) :
    Quoted least (front ++ rest) := by
  rcases h with h | ⟨front, more, hf, rfl⟩
  · exact Or.inl (h.append rest)
  · exact Or.inr ⟨front, more ++ rest, hf, by rw [List.append_assoc, List.cons_append]⟩

theorem Written.append {cs ds : Text} (h : Written least cs) (h' : Written least ds) :
    Written least (cs ++ ds) :=
  Each.append (fun _ hf => hf.append ds) h h'

/-- Any part of a text has its marks whole up to the last. -/
theorem Clipped.part {cs ds : Text} (h : Clipped least cs) (hi : ds <:+: cs) :
    Clipped least ds := by
  obtain ⟨before, behind, rfl⟩ := hi
  have hs : Clipped least (ds ++ behind) := h.suffix ⟨before, (List.append_assoc _ _ _).symm⟩
  refine Each.cut ?_ hs
  intro front hfront
  rcases hfront with hfront | hfront
  · exact hfront.cases_cut.imp id And.left
  · exact Or.inr hfront.prefix

/-! ### Texts changed -/

/-- A change of texts that leaves the characters of marks alone. -/
structure Spares (change : Text → Text) : Prop where
  nil : change [] = []
  inner : ∀ c cs, isInner c = true → change (c :: cs) = c :: change cs

namespace Spares

variable {change : Text → Text}

theorem append (h : Spares change) {front : Text} (hf : ∀ c ∈ front, isInner c = true)
    (rest : Text) : change (front ++ rest) = front ++ change rest := by
  induction front with
  | nil => rfl
  | cons c front ih =>
    obtain ⟨hc, hothers⟩ := List.forall_mem_cons.mp hf
    rw [List.cons_append, h.inner c _ hc, ih hothers, List.cons_append]

theorem begun (h : Spares change) {cs : Text} (hb : Begun least cs) : Begun least (change cs) := by
  cases hb with
  | @word c hc rest =>
    rw [h.inner c rest (by rcases hc with rfl | rfl <;> decide)]
    exact .word hc _
  | @whole body hbody rest =>
    have hsplit : body ++ closing :: rest = body ++ [closing] ++ rest := by
      rw [List.append_assoc, List.singleton_append]
    rw [hsplit, h.append hbody.inner_closed, List.append_assoc, List.singleton_append]
    exact .whole hbody _

theorem front (h : Spares change) {cs : Text} (hf : Front least cs) :
    Front least (change cs) := by
  have happend := h.append hf.inner []
  rw [h.nil, List.append_nil] at happend
  rwa [happend]

theorem quoted (h : Spares change) (hq : ∀ cs, change ('"' :: cs) = '"' :: change cs)
    {cs : Text} (hc : Quoted least cs) : Quoted least (change cs) := by
  rcases hc with hc | ⟨front, more, hf, rfl⟩
  · exact Or.inl (h.begun hc)
  · exact Or.inr ⟨front, change more, hf, by rw [h.append hf.inner, hq]⟩

end Spares

/-- A change that gives each character an image, of which none but that of the start of a mark begins
a mark. -/
theorem Each.change {begins begins' : Text → Prop} (change : Text → Text)
    (hnil : change [] = [])
    (himage : ∀ c cs, ∃ image, change (c :: cs) = image ++ change cs ∧
      (c = opening ∧ image = [c] ∨ opening ∉ image))
    (hkeep : ∀ cs, begins cs → begins' (change cs)) {cs : Text} (h : Each begins cs) :
    Each begins' (change cs) := by
  induction cs with
  | nil =>
    rw [hnil]
    trivial
  | cons c cs ih =>
    obtain ⟨image, hchange, hi⟩ := himage c cs
    rw [hchange]
    rcases hi with ⟨hc, rfl⟩ | hi
    · exact ⟨fun _ => hkeep cs (h.1 hc), ih h.2⟩
    · exact Each.append (fun _ hf => False.elim hf) (each_of_not_mem hi) (ih h.2)

end Changelog.Mark
