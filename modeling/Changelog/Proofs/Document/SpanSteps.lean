import Changelog.Proofs.Document.Spans

/-!
# Running text is read to its end

Whatever a reader replaces begins with one of a few signs, and marks hold none of them: each
replacement leaves fewer signs, in the text and in what is still read inside the replaced part.  So
the bound on the steps is never met, and more steps would change nothing.
-/

namespace Changelog.Span

open Text

/-- The characters with which readers begin. -/
def signs : List Char :=
  ['\\', tick, '[', '!', '<', ' ', '&', '*', '_']

def signCount (cs : Text) : Nat :=
  cs.countP signs.contains

section

variable {cs ds : Text}

theorem signCount_append (cs ds : Text) : signCount (cs ++ ds) = signCount cs + signCount ds :=
  List.countP_append

theorem signCount_le_length (cs : Text) : signCount cs ≤ cs.length :=
  List.countP_le_length

theorem signCount_infix (h : cs <:+: ds) : signCount cs ≤ signCount ds :=
  h.sublist.countP_le

theorem signCount_decimal (n : Nat) : signCount (decimal n) = 0 := by
  refine List.countP_eq_zero.mpr fun c hc hs => ?_
  have hdigit := isAsciiDigit_of_mem_decimal hc
  have hnone : signs.all (fun d => !isAsciiDigit d) = true := by decide
  have hsign := List.all_eq_true.mp hnone c (List.contains_iff_mem.mp hs)
  rw [hdigit] at hsign
  cases hsign

theorem signCount_mark (index : Nat) : signCount (Mark.span index) = 0 := by
  have hzeros : signCount (List.replicate (4 - (decimal index).length) '0') = 0 := by
    refine List.countP_eq_zero.mpr fun c hc hs => ?_
    rw [List.eq_of_mem_replicate hc] at hs
    exact absurd hs (by decide)
  show signCount ((Mark.opening :: Mark.spanWord) ++ (_ ++ _) ++ [Mark.closing]) = 0
  rw [signCount_append, signCount_append, signCount_append, hzeros, signCount_decimal]
  decide

end

/-! ### What readers take -/

/-- The text that is still to be read in a value is a part of the given text. -/
def Value.Inside (cs : Text) : Value → Prop
  | .element d => d.children = [] ∧ ∀ chars, d.text = some (.running chars) → chars <:+: cs
  | _ => True

/-- What follows, and what is still to be read in a value, are parts of the given text. -/
def Outcome.Behind (cs : Text) : Outcome → Prop
  | .replace value rest => rest <:+ cs ∧ value.Inside cs
  | .pass rest => rest <:+ cs

/-- A reader takes a sign, and all else stands behind it. -/
def Takes (cs : Text) (outcome : Outcome) : Prop :=
  ∃ c more, cs = c :: more ∧ c ∈ signs ∧ outcome.Behind more

variable {references : References} {shelf : Shelf} {before cs : Text} {outcome : Outcome}

theorem takes_code (h : readCode before cs = some outcome) :
    Takes cs outcome := by
  unfold readCode at h
  split at h
  · cases h
  split at h
  · next more =>
    dsimp only at h
    split at h
    · cases h
      exact ⟨'\\', more, rfl, by decide, spanWhile_suffix _ more, trivial⟩
    · cases h
  · dsimp only at h
    split at h
    · next inside left hr =>
      cases h
      obtain ⟨hleft, -⟩ := readTicks_spec (g := Grade.any) hr
      cases cs with
      | nil => cases hr
      | cons c more =>
        by_cases hc : c = tick
        · subst hc
          have hrest : (spanWhile (· == tick) (tick :: more)).2 <:+ more :=
            spanWhile_suffix (· == tick) more
          exact ⟨tick, more, rfl, by decide, hleft.trans hrest, rfl, nofun⟩
        · have hnone : (c == tick) = false := beq_eq_false_iff_ne.mpr hc
          simp only [spanWhile, hnone] at hr
          cases hr
    · cases h

theorem takes_escape (h : readEscape before cs = some outcome) :
    Takes cs outcome := by
  unfold readEscape at h
  split at h
  · next c left =>
    split at h
    · cases h
      exact ⟨'\\', c :: left, rfl, by decide, List.suffix_cons c left, trivial⟩
    · cases h
      exact ⟨'\\', c :: left, rfl, by decide, List.suffix_cons c left⟩
  · cases h

theorem refer_spec (tag attr : String) (address : Text) (title : Option Text) :
    (refer tag attr address title).children = [] ∧ (refer tag attr address title).text = none := by
  cases title with
  | none => exact ⟨rfl, rfl⟩
  | some t => exact ⟨rfl, rfl⟩

theorem inside_linkDraft {label inner : Text} (h : label <:+: inner) (address : Text)
    (title : Option Text) : (Value.element (linkDraft label address title)).Inside inner :=
  ⟨(refer_spec _ _ _ _).1, fun chars hc => by cases hc; exact h⟩

theorem inside_imageDraft (shelf : Shelf) (label inner address : Text) (title : Option Text) :
    (Value.element (imageDraft shelf label address title)).Inside inner := by
  obtain ⟨hchildren, htext⟩ := refer_spec "img" "src" address title
  exact ⟨hchildren, fun chars hc => nomatch htext.symm.trans hc⟩

theorem untilBracket_parts {label inner left : Text} (h : untilBracket 1 inner = some (label, left)) :
    label <:+: inner ∧ left <:+ inner := by
  rw [untilBracket_eq h]
  exact ⟨⟨[], ']' :: left, rfl⟩, ⟨label ++ [']'], by rw [List.append_assoc, List.singleton_append]⟩⟩

theorem readLinkText?_inner {label left : Text} (h : readLinkText? before cs = some (label, left)) :
    ∃ inner, cs = '[' :: inner ∧ label <:+: inner ∧ left <:+ inner := by
  unfold readLinkText? at h
  split at h
  · next inner =>
    split at h
    · cases h
    · exact ⟨inner, rfl, untilBracket_parts h⟩
  · cases h

theorem readImageText?_inner {label left : Text} (h : readImageText? cs = some (label, left)) :
    ∃ inner, cs = '!' :: inner ∧ left <:+ inner := by
  unfold readImageText? at h
  split at h
  · next inner =>
    exact ⟨'[' :: inner, rfl, (untilBracket_parts h).2.trans (List.suffix_cons '[' inner)⟩
  · cases h

theorem takes_link (h : readLink shelf before cs = some outcome) :
    Takes cs outcome := by
  unfold readLink at h
  split at h
  · next inner =>
    split at h
    · cases h
    split at h
    · next label left hl =>
      obtain ⟨hlabel, hleft⟩ := untilBracket_parts hl
      split at h
      · next d hd =>
        cases h
        exact ⟨'[', inner, rfl, by decide, (within_readDestination? hd).rest.trans hleft,
          inside_linkDraft hlabel _ _⟩
      · cases h
    · cases h
  · cases h

theorem takes_image (h : readImage shelf before cs = some outcome) :
    Takes cs outcome := by
  unfold readImage at h
  split at h
  · next label left hl =>
    obtain ⟨inner, rfl, hleft⟩ := readImageText?_inner hl
    split at h
    · next d hd =>
      cases h
      exact ⟨'!', inner, rfl, by decide, (within_readDestination? hd).rest.trans hleft,
        inside_imageDraft shelf label inner _ _⟩
    · cases h
  · cases h

/-- What stands for the name of a link target ends behind the text of the link. -/
theorem name_suffix {short : Bool} {label left name behind : Text}
    (h : (if short then some (lower label, left) else readName? label left) = some (name, behind)) :
    behind <:+ left := by
  split at h
  · cases h
    exact List.suffix_refl left
  · exact readName?_suffix h

theorem behind_resolve {name left inner : Text} {make : Text → Option Text → Draft}
    (hleft : left <:+ inner) (hm : ∀ address title, (Value.element (make address title)).Inside inner) :
    (resolve references name left make).Behind inner := by
  unfold resolve
  split
  · next address title _ => exact ⟨hleft, hm address title⟩
  · exact hleft

theorem takes_reference {short : Bool}
    (h : readReference references short before cs = some outcome) :
    Takes cs outcome := by
  unfold readReference at h
  split at h
  · next label left hl =>
    obtain ⟨inner, rfl, hlabel, hleft⟩ := readLinkText?_inner hl
    split at h
    · next name behind hn =>
      cases h
      exact ⟨'[', inner, rfl, by decide,
        behind_resolve ((name_suffix hn).trans hleft) (inside_linkDraft hlabel)⟩
    · cases h
  · cases h

theorem takes_imageReference {short : Bool}
    (h : readImageReference references shelf short before cs = some outcome) :
    Takes cs outcome := by
  unfold readImageReference at h
  split at h
  · next label left hl =>
    obtain ⟨inner, rfl, hleft⟩ := readImageText?_inner hl
    split at h
    · next name behind hn =>
      cases h
      exact ⟨'!', inner, rfl, by decide,
        behind_resolve ((name_suffix hn).trans hleft) (inside_imageDraft shelf label inner)⟩
    · cases h
  · cases h

theorem takes_webAddress (h : readWebAddress shelf before cs = some outcome) :
    Takes cs outcome := by
  unfold readWebAddress at h
  split at h
  · next inner =>
    split at h
    · cases h
    split at h
    · next address left ha =>
      cases h
      obtain ⟨hinner, -, -⟩ := spanWhile_spec ha
      refine ⟨'<', inner, rfl, by decide, ⟨address ++ ['>'], ?_⟩, rfl, nofun⟩
      rw [hinner, List.append_assoc, List.singleton_append]
    · cases h
  · cases h

theorem takes_mailAddress (h : readMailAddress shelf before cs = some outcome) :
    Takes cs outcome := by
  unfold readMailAddress at h
  split at h
  · next inner =>
    split at h
    · next address left ha =>
      split at h
      · cases h
        obtain ⟨hinner, -, -⟩ := spanWhile_spec ha
        refine ⟨'<', inner, rfl, by decide, ⟨address ++ ['>'], ?_⟩, rfl, nofun⟩
        rw [hinner, List.append_assoc, List.singleton_append]
      · cases h
    · cases h
  · cases h

theorem takes_break (h : readBreak before cs = some outcome) :
    Takes cs outcome := by
  unfold readBreak at h
  split at h
  · cases h
    exact ⟨' ', _, rfl, by decide, ⟨[' ', '\n'], rfl⟩, rfl, nofun⟩
  · cases h

theorem takes_markup (h : readMarkup shelf before cs = some outcome) :
    Takes cs outcome := by
  unfold readMarkup at h
  split at h
  · next inner =>
    obtain ⟨⟨body, left⟩, hr, heq⟩ := Option.map_eq_some_iff.mp h
    cases heq
    obtain ⟨inside, -, rfl⟩ : ∃ inside, body = inside ++ ['>'] ∧ inner = body ++ left := by
      rcases Option.or_eq_some_iff.mp hr with hr | ⟨-, hr⟩
      · exact readTagBody?_eq hr
      · exact readHiddenBody?_eq hr
    exact ⟨'<', _, rfl, by decide, List.suffix_append body left, trivial⟩
  · cases h

theorem takes_characterReference
    (h : readCharacterReference shelf before cs = some outcome) :
    Takes cs outcome := by
  unfold readCharacterReference at h
  split at h
  · next inner =>
    obtain ⟨⟨body, left⟩, hr, heq⟩ := Option.map_eq_some_iff.mp h
    cases heq
    obtain ⟨rfl, -⟩ := readReferenceBody?_eq hr
    exact ⟨'&', _, rfl, by decide, List.suffix_append body left, trivial⟩
  · cases h

theorem takes_loneMarks (h : readLoneMarks before cs = some outcome) :
    Takes cs outcome := by
  unfold readLoneMarks at h
  cases cs with
  | nil => cases h
  | cons c more =>
    simp only [Option.ite_none_right_eq_some] at h
    obtain ⟨hmark, -, h⟩ := h
    cases h
    have hsign : c ∈ signs := by
      rw [Bool.and_eq_true, Bool.or_eq_true, beq_iff_eq, beq_iff_eq] at hmark
      rcases hmark.2 with rfl | rfl <;> decide
    have hrest : (spanWhile (· == c) (c :: more)).2 <:+ more := by
      rw [spanWhile, if_pos (beq_self_eq_true c)]
      exact spanWhile_suffix _ more
    exact ⟨c, more, rfl, hsign, hrest, trivial⟩

theorem takes_readers {read : Reader} (hm : read ∈ readers references shelf)
    (h : read before cs = some outcome) : Takes cs outcome := by
  simp only [readers, List.mem_cons, List.not_mem_nil, or_false] at hm
  rcases hm with
    rfl | rfl | rfl | rfl | rfl | rfl | rfl | rfl | rfl | rfl | rfl | rfl | rfl | rfl
  · exact takes_code h
  · exact takes_escape h
  · exact takes_reference h
  · exact takes_link h
  · exact takes_image h
  · exact takes_imageReference h
  · exact takes_reference h
  · exact takes_imageReference h
  · exact takes_webAddress h
  · exact takes_mailAddress h
  · exact takes_break h
  · exact takes_markup h
  · exact takes_characterReference h
  · exact takes_loneMarks h

/-! ### Steps -/

/-- The steps that are left for a text: its signs can be replaced, and the other readers have their
turns between the replacements. -/
def stepsLeft (turn : Nat) (cs : Text) : Nat :=
  15 * signCount cs + (14 - turn) + 1

/-- A hit leaves fewer signs than there were, around it and in what is still to be read inside. -/
theorem search_shrinks {read : Reader} (hm : read ∈ readers references shelf) {hit : Hit}
    (h : search read cs = some hit) :
    signCount hit.before.reverse + signCount hit.rest < signCount cs ∧
      ∃ inner, signCount inner < signCount cs ∧ hit.value.Inside inner := by
  have hpass (before cs rest : Text) (hp : read before cs = some (.pass rest)) : rest <:+ cs := by
    obtain ⟨c, more, rfl, -, hrest⟩ := takes_readers hm hp
    exact hrest.trans (List.suffix_cons c more)
  obtain ⟨front, hcs, hmade⟩ := searchWithin_spec hpass cs.length [] cs hit h
  obtain ⟨c, more, rfl, hsign, hrest, hinside⟩ := takes_readers hm hmade
  have hone : signCount (c :: more) = signCount more + 1 :=
    List.countP_cons_of_pos (List.contains_iff_mem.mpr hsign)
  have htotal : signCount cs = signCount hit.before.reverse + (signCount more + 1) := by
    rw [← hone, ← signCount_append, ← hcs]
    rfl
  have hless := signCount_infix hrest.isInfix
  exact ⟨by omega, more, by omega, hinside⟩

/-- A value is put on the shelf alike by two ways of reading that agree on the text inside it. -/
theorem shelve_congr {read read' : ReadText} {value : Value} {inner : Text}
    (hi : value.Inside inner) (turn : Nat)
    (h : ∀ chars shelf, chars <:+: inner → read (turn + 1) chars shelf = read' (turn + 1) chars shelf)
    (shelf : Shelf) : shelve read turn value shelf = shelve read' turn value shelf := by
  cases value with
  | text chars => rfl
  | markup chars => rfl
  | element d =>
    obtain ⟨tag, attrs, text, tail, children⟩ := d
    obtain ⟨rfl, hrunning⟩ : children = [] ∧ ∀ chars, text = some (.running chars) →
      chars <:+: inner := hi
    have hspan : readSpan read turn ⟨tag, attrs, text, tail, []⟩ shelf =
        readSpan read' turn ⟨tag, attrs, text, tail, []⟩ shelf := by
      match text with
      | none => rfl
      | some ⟨chars, true⟩ => rfl
      | some ⟨chars, false⟩ =>
        have hsame := h chars shelf (hrunning chars rfl)
        simp only [readSpan, readPiece, hsame, readChildren]
    show (readSpan read turn _ shelf).2.put (.element (readSpan read turn _ shelf).1) = _
    rw [hspan]
    rfl

theorem shelve_mark (read : ReadText) (turn : Nat) (value : Value) (shelf : Shelf) :
    ∃ index, (shelve read turn value shelf).1 = Mark.span index := by
  cases value with
  | element d => exact ⟨_, rfl⟩
  | text chars => exact ⟨_, rfl⟩
  | markup chars => exact ⟨_, rfl⟩

theorem readWithin_congr {fuel fuel' turn : Nat} {cs : Text} (h : stepsLeft turn cs ≤ fuel)
    (h' : stepsLeft turn cs ≤ fuel') (shelf : Shelf) :
    readWithin references fuel turn cs shelf = readWithin references fuel' turn cs shelf := by
  induction fuel generalizing fuel' turn cs shelf with
  | zero => cases h
  | succ fuel ih =>
    obtain ⟨fuel', rfl⟩ : ∃ n, fuel' = n + 1 := Nat.exists_eq_add_of_le' (Nat.le_trans
      (Nat.le_add_left 1 _) h')
    unfold stepsLeft at ih h h'
    rw [readWithin, readWithin]
    cases hread : (readers references shelf)[turn]? with
    | none => rfl
    | some read =>
      have hturn : turn < 14 := (List.getElem?_eq_some_iff.mp hread).1
      dsimp only
      cases hs : search read cs with
      | none => exact ih (by omega) (by omega) shelf
      | some hit =>
        obtain ⟨hfewer, inner, hless, hinside⟩ :=
          search_shrinks (List.mem_of_getElem? hread) hs
        have hinner (chars : Text) (shelf : Shelf) (hc : chars <:+: inner) :
            readWithin references fuel (turn + 1) chars shelf =
              readWithin references fuel' (turn + 1) chars shelf := by
          have hchars := signCount_infix hc
          exact ih (by omega) (by omega) shelf
        dsimp only
        rw [shelve_congr hinside turn hinner shelf]
        obtain ⟨index, hmark⟩ := shelve_mark (readWithin references fuel') turn hit.value shelf
        have hleft : signCount (hit.before.reverse ++
            (shelve (readWithin references fuel') turn hit.value shelf).1 ++ hit.rest) <
              signCount cs := by
          rw [hmark, signCount_append, signCount_append, signCount_mark]
          omega
        exact ih (by omega) (by omega) _

/-- With more steps than the bound a text is read alike: the readers come to their end before it. -/
theorem readWithin_of_readBound {fuel : Nat} {cs : Text} (h : readBound cs.length ≤ fuel)
    (shelf : Shelf) : readWithin references fuel 0 cs shelf = readText references cs shelf := by
  have hbound : stepsLeft 0 cs ≤ readBound cs.length := by
    have hsigns := signCount_le_length cs
    have hsquare : (cs.length + 2) * 2 ≤ (cs.length + 2) * (cs.length + 2) :=
      Nat.mul_le_mul_left _ (Nat.le_add_left 2 _)
    unfold stepsLeft readBound
    rw [Nat.mul_assoc]
    omega
  exact readWithin_congr (Nat.le_trans hbound h) hbound shelf

end Changelog.Span
