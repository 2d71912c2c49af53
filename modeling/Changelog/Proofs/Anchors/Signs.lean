import Changelog.Markdown.Escape
import Changelog.Style.Anchor
import Mathlib.Data.List.SplitBy

/-!
# Anchors sign by sign

Lower case looks at both neighbours of a capital sigma, and makes some texts longer.  Nothing of
this is left in an anchor: `ofText_spelled` puts it together from what each character shows by
itself, and `ofText_pieces` makes the anchor of a text from the anchors of its pieces.
-/

namespace Changelog.Anchor

open Text

/-- What a character shows in an anchor: its signs, and gaps where it has none. -/
def signs (c : Char) : List (Option Char) :=
  if c.isAlpha then [some c.toLower]
  else if c.isDigit ∨ c = '_' then [some c]
  else if c = '\u0130' then [some 'i', none]
  else if c = '\u212a' then [some 'k']
  else [none]

/-- Signs with every longest run of gaps made one hyphen. -/
def hyphenated (line : List (Option Char)) : Text :=
  (line.splitBy fun s t => s.isNone && t.isNone).map fun run => run.head?.join.getD '-'

/-- A small ASCII letter, an ASCII digit or the low line. -/
def IsSign (c : Char) : Prop :=
  'a' ≤ c ∧ c ≤ 'z' ∨ '0' ≤ c ∧ c ≤ '9' ∨ c = '_'

instance (c : Char) : Decidable (IsSign c) :=
  inferInstanceAs (Decidable (_ ∨ _))

/-! ### Characters -/

/-- The sign of a character in lower case. -/
def signOf (c : Char) : Option Char :=
  if isAsciiWord c then some c else none

theorem forall_ascii {p : Char → Prop} (h : ∀ n < 128, p (Char.ofNat n)) (c : Char)
    (hc : c.toNat < 128) : p c := by
  have hn := h c.toNat hc
  rwa [Char.ofNat_toNat] at hn

theorem isAlphanum_of_ge {c : Char} (h : 128 ≤ c.toNat) : c.isAlphanum = false := by
  rw [← Bool.not_eq_true]
  intro hword
  change (decide ('A'.val ≤ c.val ∧ c.val ≤ 'Z'.val) ||
    (decide ('a'.val ≤ c.val) && decide (c.val ≤ 'z'.val)) ||
    (decide ('0'.val ≤ c.val) && decide (c.val ≤ '9'.val))) = true at hword
  simp only [Bool.or_eq_true, Bool.and_eq_true, decide_eq_true_eq, UInt32.le_iff_toNat_le] at hword
  have hcode : c.toNat = c.val.toNat := rfl
  have hZ : 'Z'.val.toNat = 90 := rfl
  have hz : 'z'.val.toNat = 122 := rfl
  have h9 : '9'.val.toNat = 57 := rfl
  omega

theorem signOf_of_ge {c : Char} (h : 128 ≤ c.toNat) : signOf c = none := by
  have hline : c ≠ '_' := by
    rintro rfl
    exact absurd h (by decide)
  rw [signOf, isAsciiWord, isAlphanum_of_ge h, beq_false_of_ne hline]
  rfl

theorem signOf_ofNat {n : Nat} (h : 128 ≤ n) : signOf (Char.ofNat n) = none := by
  unfold Char.ofNat
  by_cases hv : n.isValidChar
  · rw [dif_pos hv]
    exact signOf_of_ge h
  · rw [dif_neg hv]
    decide

/-- The kelvin sign is the one capital beyond ASCII that has an ASCII letter in lower case. -/
theorem signOf_lowerSimple_of_ge {c : Char} (h : 128 ≤ c.toNat) :
    signOf (lowerSimple c) = if c = '\u212a' then some 'k' else none := by
  split
  · next hk =>
    rw [hk]
    decide +kernel
  · next hk =>
    have hcode : c.toNat ≠ 0x212a := fun he => hk (Char.toNat_inj.mp he)
    have hcapital : ¬ c ≤ 'Z' := fun hle => by
      have hle' : c.toNat ≤ 90 := hle
      omega
    rw [lowerSimple, decide_eq_false hcapital, Bool.and_false, if_neg Bool.false_ne_true,
      if_neg (Nat.not_lt.mpr h)]
    split
    · next n hn =>
      obtain ⟨run, hrun, happly⟩ := List.exists_of_findSome?_eq_some hn
      have hall : ∀ r ∈ lowerRuns, 128 ≤ r.image ∨ r.first = 0x212a ∧ r.last = 0x212a := by
        decide +kernel
      unfold LowerRun.apply? at happly
      split at happly
      · next hin =>
        cases happly
        refine signOf_ofNat ?_
        rcases hall run hrun with himage | ⟨hfirst, hlast⟩
        · omega
        · omega
      · cases happly
    · exact signOf_of_ge h

theorem signs_of_ge {c : Char} (h : 128 ≤ c.toNat) :
    signs c = if c = '\u0130' then [some 'i', none] else if c = '\u212a' then [some 'k']
      else [none] := by
  have hword := isAlphanum_of_ge h
  rw [Char.isAlphanum, Bool.or_eq_false_iff] at hword
  have hline : c ≠ '_' := by
    rintro rfl
    exact absurd h (by decide)
  rw [signs, hword.1, hword.2, if_neg Bool.false_ne_true, if_neg]
  rintro (hd | hl)
  · cases hd
  · exact hline hl

theorem signs_eq {c : Char} (hd : c ≠ capitalDottedI) :
    signs c = [signOf (lowerSimple c)] := by
  by_cases hc : c.toNat < 128
  · exact forall_ascii (p := fun c => signs c = [signOf (lowerSimple c)]) (by decide +kernel) c hc
  · have hge : 128 ≤ c.toNat := Nat.not_lt.mp hc
    rw [signs_of_ge hge, signOf_lowerSimple_of_ge hge, if_neg (show ¬c = '\u0130' from hd)]
    split
    · rfl
    · rfl

theorem signs_sign {c d : Char} (h : some d ∈ signs c) : IsSign d ∧ signs d = [some d] := by
  by_cases hc : c.toNat < 128
  · refine forall_ascii (p := fun c => ∀ d : Char, some d ∈ signs c →
      IsSign d ∧ signs d = [some d]) ?_ c hc d h
    have hall : ∀ n < 128, ((signs (Char.ofNat n)).all fun s =>
        s.all fun d => decide (IsSign d ∧ signs d = [some d])) = true := by
      decide +kernel
    intro n hn d hd
    exact of_decide_eq_true (List.all_eq_true.mp (hall n hn) (some d) hd)
  · have hsmall : d = 'i' ∨ d = 'k' := by
      rw [signs_of_ge (Nat.not_lt.mp hc)] at h
      split at h
      · exact Or.inl (by simpa using h)
      · split at h
        · exact Or.inr (by simpa using h)
        · simp at h
    rcases hsmall with rfl | rfl
    · decide
    · decide

/-- The signs of a text in lower case: the neighbours of a character change none of them. -/
theorem map_signOf_lowerAfter (before cs : Text) :
    (lowerAfter before cs).map signOf = cs.flatMap signs := by
  induction cs generalizing before with
  | nil => rfl
  | cons c cs ih =>
    rw [lowerAfter, List.map_append, ih, List.flatMap_cons]
    congr 1
    split
    · next hs =>
      -- Which small sigma follows from the neighbours; both of them are gaps.
      have hfinal : signOf '\u03c2' = none := by decide
      have hinner : signOf '\u03c3' = none := by decide
      rw [hs]
      split
      · exact congrArg (fun s => [s]) hfinal
      · exact congrArg (fun s => [s]) hinner
    · next hs =>
      split
      · next hd =>
        rw [hd]
        decide
      · next hd => exact (signs_eq hd).symm

/-! ### Runs of gaps -/

/-- Signs with every run of gaps made one hyphen, one after the other; `inGap` says that a gap
stands before them. -/
def joined (inGap : Bool) : List (Option Char) → Text
  | [] => []
  | some c :: line => c :: joined false line
  | none :: line => if inGap then joined true line else '-' :: joined true line

theorem hyphenate_eq_joined (inGap : Bool) (cs : Text) :
    hyphenate inGap cs = joined inGap (cs.map signOf) := by
  induction cs generalizing inGap with
  | nil => rfl
  | cons c cs ih =>
    rw [hyphenate, List.map_cons, signOf]
    by_cases hword : isAsciiWord c = true
    · rw [if_pos hword, if_pos hword, joined, ih]
    · rw [if_neg hword, if_neg hword, joined, ih]

theorem ofText_eq_joined (text : Text) : ofText text = joined false (text.flatMap signs) := by
  rw [ofText, hyphenate_eq_joined, lower, map_signOf_lowerAfter]

theorem splitBy_cons_cons {α : Type} {r : α → α → Bool} {a b : α} {l : List α} {run : List α}
    {runs : List (List α)} (h : r a b = true) (hl : (b :: l).splitBy r = run :: runs) :
    (a :: b :: l).splitBy r = (a :: run) :: runs := by
  obtain ⟨hflat, hne, hchain, hbreaks⟩ := List.splitBy_eq_iff.mp hl
  obtain ⟨hrun, hruns⟩ := List.forall_mem_cons.mp hchain
  have hsome : run ≠ [] := fun he => hne (he ▸ List.mem_cons_self)
  obtain ⟨c, more, rfl⟩ := List.exists_cons_of_ne_nil hsome
  obtain rfl : b = c := (List.cons.inj hflat).1
  refine List.splitBy_eq_iff.mpr ⟨?_, ?_, ?_, ?_⟩
  · rw [hflat]
    rfl
  · rw [List.mem_cons, not_or]
    exact ⟨(List.cons_ne_nil _ _).symm, fun hm => hne (List.mem_cons_of_mem _ hm)⟩
  · exact List.forall_mem_cons.mpr ⟨List.isChain_cons_cons.mpr ⟨h, hrun⟩, hruns⟩
  · rw [List.isChain_cons] at hbreaks ⊢
    refine ⟨fun next hnext => ?_, hbreaks.2⟩
    obtain ⟨ha, hb, hbreak⟩ := hbreaks.1 next hnext
    exact ⟨List.cons_ne_nil _ _, hb, by rwa [List.getLast_cons ha]⟩

theorem hyphenated_break {s t : Option Char} (h : (s.isNone && t.isNone) = false)
    (line : List (Option Char)) :
    hyphenated (s :: t :: line) = s.getD '-' :: hyphenated (t :: line) := by
  have hsplit := List.splitBy_append_cons (r := fun s t : Option Char => s.isNone && t.isNone)
    (l := [s]) (a := t) line (by simpa using h)
  rw [hyphenated, ← List.singleton_append, hsplit, List.map_append]
  rfl

theorem hyphenated_some (c : Char) (line : List (Option Char)) :
    hyphenated (some c :: line) = c :: hyphenated line := by
  cases line with
  | nil => rfl
  | cons s line => exact hyphenated_break rfl line

theorem hyphenated_none_none (line : List (Option Char)) :
    hyphenated (none :: none :: line) = hyphenated (none :: line) := by
  obtain ⟨run, runs, hl⟩ := List.exists_cons_of_ne_nil
    (List.splitBy_ne_nil (r := fun s t : Option Char => s.isNone && t.isNone).mpr
      (List.cons_ne_nil none line))
  have hhead : run.head? = some none := by
    have hflat := List.flatten_splitBy (fun s t : Option Char => s.isNone && t.isNone) (none :: line)
    have hne := List.nil_notMem_splitBy (fun s t : Option Char => s.isNone && t.isNone)
      (none :: line)
    rw [hl] at hflat hne
    cases run with
    | nil => exact absurd List.mem_cons_self hne
    | cons s run => exact congrArg some (List.cons.inj hflat).1
  rw [hyphenated, hyphenated, splitBy_cons_cons rfl hl, hl, List.map_cons, List.map_cons, hhead]
  rfl

theorem hyphenated_eq_joined (line : List (Option Char)) :
    hyphenated line = joined false line ∧ hyphenated (none :: line) = '-' :: joined true line := by
  -- Both at once: a run in front of the line is what `joined true` remembers of it.
  induction line with
  | nil => exact ⟨rfl, rfl⟩
  | cons s line ih =>
    cases s with
    | some c =>
      refine ⟨?_, ?_⟩
      · rw [hyphenated_some, ih.1, joined]
      · rw [hyphenated_break rfl, hyphenated_some, ih.1, joined]
        rfl
    | none =>
      refine ⟨?_, ?_⟩
      · rw [ih.2, joined, if_neg Bool.false_ne_true]
      · rw [hyphenated_none_none, ih.2, joined, if_pos rfl]

theorem mem_joined {inGap : Bool} {line : List (Option Char)} {c : Char}
    (h : c ∈ joined inGap line) : some c ∈ line ∨ c = '-' := by
  induction line generalizing inGap with
  | nil => cases h
  | cons s line ih =>
    cases s with
    | some d =>
      rcases List.mem_cons.mp h with rfl | h
      · exact Or.inl List.mem_cons_self
      · exact (ih h).imp_left (List.mem_cons_of_mem _)
    | none =>
      rw [joined] at h
      split at h
      · exact (ih h).imp_left (List.mem_cons_of_mem _)
      · rcases List.mem_cons.mp h with rfl | h
        · exact Or.inr rfl
        · exact (ih h).imp_left (List.mem_cons_of_mem _)

theorem joined_eq_nil {line : List (Option Char)} (h : joined false line = []) : line = [] := by
  cases line with
  | nil => rfl
  | cons s line =>
    cases s with
    | some c => cases h
    | none => cases h

/-- A hyphen is never followed by another one, and none stands behind a gap. -/
theorem hyphens_apart {inGap : Bool} {line : List (Option Char)} (h : some '-' ∉ line) :
    ¬['-', '-'] <:+: joined inGap line ∧ (inGap = true → ¬['-'] <+: joined inGap line) := by
  induction line generalizing inGap with
  | nil =>
    refine ⟨?_, fun _ => ?_⟩
    · simp [joined]
    · simp [joined]
  | cons s line ih =>
    rw [List.mem_cons, not_or] at h
    cases s with
    | some c =>
      have hc : '-' ≠ c := fun he => h.1 (congrArg some he)
      refine ⟨?_, fun _ hp => hc (List.cons_prefix_cons.mp hp).1⟩
      rw [joined, List.infix_cons_iff, List.cons_prefix_cons]
      rintro (⟨he, -⟩ | hi)
      · exact hc he
      · exact (ih h.2).1 hi
    | none =>
      rw [joined]
      split
      · exact ⟨(ih h.2).1, fun _ => (ih h.2).2 rfl⟩
      · next hgap =>
        refine ⟨?_, fun ht => absurd ht hgap⟩
        rw [List.infix_cons_iff, List.cons_prefix_cons]
        rintro (⟨-, hp⟩ | hi)
        · exact (ih h.2).2 rfl hp
        · exact (ih h.2).1 hi

/-! ### Signs of anchors -/

/-- Whether all signs of a line show themselves. -/
def Settled (line : List (Option Char)) : Prop :=
  ∀ d, some d ∈ line → IsSign d ∧ signs d = [some d]

theorem settled_signs (text : Text) : Settled (text.flatMap signs) := by
  intro d hd
  obtain ⟨c, -, hc⟩ := List.mem_flatMap.mp hd
  exact signs_sign hc

theorem joined_joined_append {line : List (Option Char)} (h : Settled line) (inGap : Bool)
    (rest : List (Option Char)) :
    joined inGap ((joined inGap line).flatMap signs ++ rest) = joined inGap (line ++ rest) := by
  induction line generalizing inGap with
  | nil => rfl
  | cons s line ih =>
    have hline : Settled line := fun d hd => h d (List.mem_cons_of_mem _ hd)
    cases s with
    | some c =>
      have hc : signs c = [some c] := (h c List.mem_cons_self).2
      show joined inGap (signs c ++ (joined false line).flatMap signs ++ rest) =
        c :: joined false (line ++ rest)
      rw [hc]
      exact congrArg (c :: ·) (ih hline false)
    | none =>
      cases inGap with
      | true => exact ih hline true
      | false => exact congrArg ('-' :: ·) (ih hline true)

theorem joined_joined {line : List (Option Char)} (h : Settled line) (inGap : Bool) :
    joined inGap ((joined inGap line).flatMap signs) = joined inGap line := by
  have happend := joined_joined_append h inGap []
  rwa [List.append_nil, List.append_nil] at happend

theorem joined_append_joined {line : List (Option Char)} (h : Settled line) (inGap : Bool)
    (front : List (Option Char)) :
    joined inGap (front ++ (joined false line).flatMap signs) = joined inGap (front ++ line) := by
  induction front generalizing inGap with
  | nil =>
    cases inGap with
    | false => exact joined_joined h false
    | true =>
      -- Behind a gap the line loses the hyphen that it may begin with.
      cases line with
      | nil => rfl
      | cons s line =>
        have hline : Settled line := fun d hd => h d (List.mem_cons_of_mem _ hd)
        cases s with
        | some c =>
          have hc : signs c = [some c] := (h c List.mem_cons_self).2
          show joined true (signs c ++ (joined false line).flatMap signs) = c :: joined false line
          rw [hc]
          exact congrArg (c :: ·) (joined_joined hline false)
        | none => exact joined_joined hline true
  | cons s front ih =>
    cases s with
    | some c => exact congrArg (c :: ·) (ih false)
    | none =>
      cases inGap with
      | true => exact ih true
      | false => exact congrArg ('-' :: ·) (ih true)

/-! ### Anchors -/

theorem mem_ofText {text : Text} {c : Char} (h : c ∈ ofText text) : IsSign c ∨ c = '-' := by
  rw [ofText_eq_joined] at h
  exact (mem_joined h).imp_left fun hm => (settled_signs text c hm).1

theorem signs_ne_nil (c : Char) : signs c ≠ [] := by
  unfold signs
  split
  · exact List.cons_ne_nil _ _
  · split
    · exact List.cons_ne_nil _ _
    · split
      · exact List.cons_ne_nil _ _
      · split
        · exact List.cons_ne_nil _ _
        · exact List.cons_ne_nil _ _

/-- No character of an anchor is written as a reference. -/
theorem value_eq_self {cs : Text} (h : ∀ c ∈ cs, IsSign c ∨ c = '-') : Escape.value cs = cs := by
  have hne {c d : Char} (hc : IsSign c ∨ c = '-') (hd : ¬(IsSign d ∨ d = '-')) : c ≠ d :=
    fun he => hd (he ▸ hc)
  induction cs with
  | nil => rfl
  | cons c cs ih =>
    obtain ⟨hc, hcs⟩ := List.forall_mem_cons.mp h
    have hrest : Escape.characters true cs = cs := ih hcs
    rw [Escape.value, Escape.characters, if_neg (hne hc (by decide)), if_neg (hne hc (by decide)),
      if_neg (hne hc (by decide)), if_neg fun hq => hne hc (by decide) hq.1, hrest]
    rfl

theorem ofText_append_left (a b : Text) : ofText (ofText a ++ b) = ofText (a ++ b) := by
  rw [ofText_eq_joined, ofText_eq_joined, ofText_eq_joined, List.flatMap_append,
    List.flatMap_append, joined_joined_append (settled_signs a)]

theorem ofText_append_right (a b : Text) : ofText (a ++ ofText b) = ofText (a ++ b) := by
  rw [ofText_eq_joined, ofText_eq_joined, ofText_eq_joined, List.flatMap_append,
    List.flatMap_append, joined_append_joined (settled_signs b)]

/-- An anchor is what the characters of its text show one by one, with every run of gaps made one
hyphen: small letters, digits, low lines and single hyphens, which are written in an attribute as
they stand, and at least one of them for every text that is not empty. -/
theorem ofText_spelled (text : Text) :
    ofText text = hyphenated (text.flatMap signs) ∧
      (∀ c ∈ ofText text, IsSign c ∨ c = '-') ∧
      Escape.value (ofText text) = ofText text ∧
      ¬['-', '-'] <:+: ofText text ∧ (ofText text = [] ↔ text = []) := by
  refine ⟨?_, fun c => mem_ofText, value_eq_self fun c => mem_ofText, ?_, ?_⟩
  · rw [ofText_eq_joined, (hyphenated_eq_joined _).1]
  · have hhyphen : some '-' ∉ text.flatMap signs := fun hm =>
      absurd (settled_signs text '-' hm).1 (by decide)
    rw [ofText_eq_joined]
    exact (hyphens_apart hhyphen).1
  · refine ⟨fun h => ?_, fun h => by rw [h]; rfl⟩
    rw [ofText_eq_joined] at h
    cases text with
    | nil => rfl
    | cons c text =>
      have hline := joined_eq_nil h
      rw [List.flatMap_cons, List.append_eq_nil_iff] at hline
      exact absurd hline.1 (signs_ne_nil c)

example : ofText "Release 1.0".toList = "release-1-0".toList := by decide +kernel

/-- The anchor of a text is made from the anchors of its pieces, wherever it is cut, and an anchor
is its own anchor. -/
theorem ofText_pieces :
    (∀ a b : Text, ofText (a ++ b) = ofText (ofText a ++ ofText b)) ∧
      (∀ text : Text, ofText (ofText text) = ofText text) ∧
      ∀ pieces : List Text, ofText pieces.flatten = ofText (pieces.flatMap ofText) := by
  refine ⟨fun a b => ?_, fun text => ?_, fun pieces => ?_⟩
  · rw [ofText_append_left, ofText_append_right]
  · have happend := ofText_append_left text []
    rwa [List.append_nil, List.append_nil] at happend
  · induction pieces with
    | nil => rfl
    | cons piece pieces ih =>
      calc ofText (piece ++ pieces.flatten)
          = ofText (piece ++ ofText pieces.flatten) := (ofText_append_right _ _).symm
        _ = ofText (piece ++ pieces.flatMap ofText) := by rw [ih, ofText_append_right]
        _ = ofText (ofText piece ++ pieces.flatMap ofText) := (ofText_append_left _ _).symm

end Changelog.Anchor
