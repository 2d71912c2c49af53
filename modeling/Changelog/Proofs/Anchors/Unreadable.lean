import Changelog.Proofs.Anchors.Segments
import Changelog.Proofs.Marks.Headings

/-!
# Texts of headings that cannot be read

Marks of escaped characters are put back from the left, and the first of them whose number is beyond
the last code point is where this breaks off.  As long as no number has more digits than can be read,
the text of a heading has no value for this reason alone, and `visible_error_iff` says which failure
that is.
-/

namespace Changelog

open Text

/-! ### Escapes beyond the last code point -/

namespace Mark

/-- Whether the mark of an escaped character with the given digits stands behind `front`. -/
structure EscapeAt (cs front digits : Text) : Prop where
  some : digits ≠ []
  digit : ∀ d ∈ digits, isDigit d = true
  place : front ++ opening :: (digits ++ [closing]) <+: cs

/-- The last number that is a code point. -/
def lastCodePoint : Nat := 0x10FFFF

/-- Whether a text holds an escape beyond the last code point. -/
def HoldsBeyond (cs : Text) : Prop :=
  ∃ front digits, EscapeAt cs front digits ∧ lastCodePoint < digitsValue digits

/-- The digits of the leftmost escape of a text that is beyond the last code point. -/
def FirstBeyond (cs digits : Text) : Prop :=
  ∃ front, EscapeAt cs front digits ∧ lastCodePoint < digitsValue digits ∧
    ∀ front' digits', EscapeAt cs front' digits' → lastCodePoint < digitsValue digits' →
      front.length ≤ front'.length

/-- Why a number beyond the last code point is no character: it does not fit 32 bits, or it is not
among the code points. -/
def beyondError (n : Nat) : NumberError :=
  if 2147483647 < n then .tooLarge else .notCodePoint

theorem EscapeAt.append {cs front digits : Text} (h : EscapeAt cs front digits) (back : Text) :
    EscapeAt (cs ++ back) front digits :=
  ⟨h.some, h.digit, h.place.trans (List.prefix_append cs back)⟩

theorem EscapeAt.length_lt {cs front digits : Text} (h : EscapeAt cs front digits) :
    front.length < cs.length := by
  have hlen := h.place.length_le
  rw [List.length_append, List.length_cons] at hlen
  omega

theorem EscapeAt.digits_infix {cs front digits : Text} (h : EscapeAt cs front digits) :
    digits <:+: cs := by
  refine List.IsInfix.trans ?_ h.place.isInfix
  exact ⟨front ++ [opening], [closing], by simp only [List.append_assoc, List.cons_append,
    List.nil_append]⟩

theorem HoldsBeyond.opening_mem {cs : Text} (h : HoldsBeyond cs) : opening ∈ cs := by
  obtain ⟨front, digits, hat, -⟩ := h
  exact hat.place.subset (List.mem_append_right front List.mem_cons_self)

theorem HoldsBeyond.first {cs : Text} (h : HoldsBeyond cs) : ∃ digits, FirstBeyond cs digits := by
  obtain ⟨front, digits, hat, hbeyond⟩ := h
  -- One that stands further to the left has less in front of it.
  induction hn : front.length using Nat.strongRecOn generalizing front digits with
  | ind n ih =>
    by_cases hless : ∃ front' digits', EscapeAt cs front' digits' ∧
        lastCodePoint < digitsValue digits' ∧ front'.length < front.length
    · obtain ⟨front', digits', hat', hbeyond', hlt⟩ := hless
      exact ih front'.length (hn ▸ hlt) front' digits' hat' hbeyond' rfl
    · refine ⟨digits, front, hat, hbeyond, fun front' digits' hat' hbeyond' => ?_⟩
      exact Nat.le_of_not_lt fun hlt => hless ⟨front', digits', hat', hbeyond', hlt⟩

theorem charOf_beyond {n : Nat} (h : lastCodePoint < n) : charOf n = .error (beyondError n) := by
  unfold charOf beyondError
  split
  · rfl
  · exact if_pos h

theorem charOf_within {n : Nat} (h : n ≤ lastCodePoint) : ∃ c, charOf n = .ok c := by
  have hn : n ≤ 0x10FFFF := h
  unfold charOf
  rw [if_neg (by omega), if_neg (by omega)]
  split
  · exact ⟨_, rfl⟩
  · exact ⟨_, rfl⟩

theorem escapedChar_eq {digits : Text} (h : digits.length ≤ digitLimit) :
    escapedChar digits = charOf (digitsValue digits) := by
  rw [escapedChar, readDecimal, if_pos h]
  rfl

/-- An escape that ends behind the start of a mark begins there or behind it. -/
theorem readEscaped?_split (cs more : Text) (hcs : cs ≠ []) :
    readEscaped? (cs ++ opening :: more) =
      (readEscaped? cs).map fun r => (r.1, r.2 ++ opening :: more) := by
  cases hr : readEscaped? cs with
  | some r =>
    exact readEscaped?_append hr _
  | none =>
    refine Option.eq_none_iff_forall_not_mem.mpr fun r hmem => ?_
    obtain ⟨digits, rest⟩ := r
    obtain ⟨hsplit, hne, hd⟩ := readEscaped?_eq hmem
    obtain ⟨c, cs, rfl⟩ := List.exists_cons_of_ne_nil hcs
    rw [List.cons_append, List.cons.injEq] at hsplit
    obtain ⟨rfl, hsplit⟩ := hsplit
    rcases List.append_eq_append_iff.mp hsplit with ⟨left, hleft, hrest⟩ | ⟨left, hleft, hrest⟩
    · cases left with
      | nil => exact absurd (List.cons.inj hrest).1 (by decide)
      | cons d left =>
        obtain ⟨rfl, -⟩ := List.cons.inj hrest
        have hopening := hd opening (hleft ▸ List.mem_append_right _ List.mem_cons_self)
        exact absurd hopening (by decide)
    · cases left with
      | nil => exact absurd (List.cons.inj hrest).1 (by decide)
      | cons d left =>
        obtain ⟨rfl, -⟩ := List.cons.inj hrest
        rw [hleft, readEscaped?_closing hne hd] at hr
        cases hr

theorem unescape_split (front more : Text) :
    unescape (front ++ opening :: more) =
      (unescape front).bind fun v => (unescape (opening :: more)).map (v ++ ·) := by
  refine replaceAll?_split reads_escaped _ (fun cs hcs => ?_) front
  rw [readEscaped?_split cs more hcs, Option.map_map, Option.map_map]
  rfl

theorem unescape_ok {cs : Text}
    (h : ∀ front digits, EscapeAt cs front digits → ∃ c, escapedChar digits = .ok c) :
    ∃ v, unescape cs = .ok v := by
  cases hu : unescape cs with
  | ok v => exact ⟨v, rfl⟩
  | error e =>
    obtain ⟨part, digits, rest, ⟨front, rfl⟩, hmark, hvalue⟩ :=
      @replaceAll?_error_of_read _ readEscaped? (fun digits => (escapedChar digits).map ([·]))
        (fun _ _ _ hr => ⟨readEscaped?_suffix hr, readEscaped?_lt hr⟩) cs e hu
    obtain ⟨rfl, hne, hd⟩ := readEscaped?_eq hmark
    obtain ⟨c, hc⟩ := h front digits ⟨hne, hd, rest, by simp only [List.cons_append,
      List.append_assoc, List.nil_append]⟩
    rw [hc] at hvalue
    cases hvalue

/-- The first mark of a text that names no character is where putting back breaks off. -/
theorem unescape_error {cs front digits : Text} {e : NumberError} (hat : EscapeAt cs front digits)
    (he : escapedChar digits = .error e)
    (hfirst : ∀ front' digits', EscapeAt cs front' digits' → front'.length < front.length →
      ∃ c, escapedChar digits' = .ok c) : unescape cs = .error e := by
  obtain ⟨hne, hd, back, rfl⟩ := hat
  have hcs : front ++ opening :: (digits ++ [closing]) ++ back =
      front ++ opening :: (digits ++ closing :: back) := by
    simp only [List.cons_append, List.append_assoc, List.nil_append]
  rw [hcs] at hfirst ⊢
  -- All marks in front of this one begin and end there, and are put back.
  obtain ⟨v, hv⟩ : ∃ v, unescape front = .ok v :=
    unescape_ok fun front' digits' hat' => hfirst front' digits' (hat'.append _) hat'.length_lt
  have hread : (readEscaped? (opening :: (digits ++ closing :: back))).map
      (fun r => ((escapedChar r.1).map ([·]), r.2)) = some (.error e, back) := by
    rw [readEscaped?_closing hne hd, Option.map_some, he]
    rfl
  have hmark : unescape (opening :: (digits ++ closing :: back)) = .error e := by
    unfold unescape
    rw [replaceAll?_read reads_escaped hread]
    rfl
  rw [unescape_split, hv, hmark]
  rfl

/-- With no more digits than can be read, only an escape beyond the last code point has no
character. -/
theorem unescape_error_iff {cs : Text} {e : NumberError}
    (hlimit : ∀ front digits, EscapeAt cs front digits → digits.length ≤ digitLimit) :
    unescape cs = .error e ↔
      ∃ digits, FirstBeyond cs digits ∧ e = beyondError (digitsValue digits) := by
  have hchar {front digits : Text} (hat : EscapeAt cs front digits)
      (hle : ¬lastCodePoint < digitsValue digits) : ∃ c, escapedChar digits = .ok c := by
    rw [escapedChar_eq (hlimit front digits hat)]
    exact charOf_within (Nat.le_of_not_lt hle)
  have hfails {digits : Text} (h : FirstBeyond cs digits) :
      unescape cs = .error (beyondError (digitsValue digits)) := by
    obtain ⟨front, hat, hbeyond, hfirst⟩ := h
    refine unescape_error hat ?_ fun front' digits' hat' hlt => hchar hat' fun hbeyond' => ?_
    · rw [escapedChar_eq (hlimit front digits hat)]
      exact charOf_beyond hbeyond
    · exact absurd (hfirst front' digits' hat' hbeyond') (Nat.not_le_of_lt hlt)
  constructor
  · intro hu
    by_cases hholds : HoldsBeyond cs
    · obtain ⟨digits, hfirst⟩ := hholds.first
      rw [hfails hfirst] at hu
      exact ⟨digits, hfirst, (Except.error.inj hu).symm⟩
    · obtain ⟨v, hv⟩ := unescape_ok fun front digits hat =>
        hchar hat fun hbeyond => hholds ⟨front, digits, hat, hbeyond⟩
      rw [hv] at hu
      cases hu
  · rintro ⟨digits, hfirst, rfl⟩
    exact hfails hfirst

end Mark

/-! ### Texts within the limit -/

namespace Anchor

variable {stash : Stash} {cs : Text} {e : NumberError}

/-- No number that is read in a text has more digits than can be read: in its marks of stored markup,
in the escapes that stand there once markup is put in, and in the references of the text whose marks
are resolved. -/
structure WithinLimit (stash : Stash) (cs : Text) : Prop where
  decimals : ∀ digits, ¬Overlong stash cs digits
  escapes : ∀ resolved front digits, resolveRaw stash cs = .ok resolved →
    Mark.EscapeAt resolved front digits → digits.length ≤ digitLimit

theorem WithinLimit.resolveRaw (h : WithinLimit stash cs) :
    ∃ resolved, Anchor.resolveRaw stash cs = .ok resolved := by
  cases hraw : Anchor.resolveRaw stash cs with
  | ok resolved => exact ⟨resolved, rfl⟩
  | error e =>
    obtain ⟨digits, hlong, -⟩ := resolveRaw_error hraw
    exact absurd hlong (h.decimals digits)

/-- Within the limit, a text has no value exactly when an escape in it is beyond the last code point;
then the leftmost of these gives the failure. -/
theorem visible_error_iff (h : WithinLimit stash cs) :
    visible stash cs = .error e ↔ ∃ resolved digits, Anchor.resolveRaw stash cs = .ok resolved ∧
      Mark.FirstBeyond resolved digits ∧ e = Mark.beyondError (digitsValue digits) := by
  obtain ⟨resolved, hraw⟩ := h.resolveRaw
  have hiff := Mark.unescape_error_iff (e := e) (h.escapes resolved · · hraw)
  constructor
  · intro he
    cases hu : Mark.unescape resolved with
    | error e' =>
      rw [visible, hraw] at he
      change (Mark.unescape resolved).bind Entity.decode = _ at he
      rw [hu] at he
      obtain rfl : e' = e := Except.error.inj he
      obtain ⟨digits, hfirst, he⟩ := hiff.mp hu
      exact ⟨resolved, digits, hraw, hfirst, he⟩
    | ok shown =>
      have hmarks : (Anchor.resolveRaw stash cs).bind Mark.unescape = .ok shown := by
        rw [hraw]
        exact hu
      rw [visible, hmarks] at he
      obtain ⟨digits, hlong, hdigits, hplace, -⟩ := decode_error he
      exact absurd ⟨hlong, hdigits, Or.inr ⟨shown, hmarks, hplace⟩⟩ (h.decimals digits)
  · rintro ⟨_, digits, hraw', hfirst, he⟩
    obtain rfl := Except.ok.inj (hraw.symm.trans hraw')
    rw [visible, hraw]
    show (Mark.unescape resolved).bind Entity.decode = _
    rw [hiff.mpr ⟨digits, hfirst, he⟩]
    rfl

end Anchor

/-! ### Runs of digits -/

/-- Whether no more than `n` digits stand in a row in a text. -/
def Text.RunsWithin (n : Nat) (cs : Text) : Prop :=
  ∀ run, run <:+: cs → (∀ d ∈ run, isDigit d = true) → run.length ≤ n

theorem Text.runsWithin_of_length {n : Nat} {cs : Text} (h : cs.length ≤ n) : RunsWithin n cs :=
  fun _ hrun _ => Nat.le_trans hrun.length_le h

theorem Text.RunsWithin.mono {m n : Nat} {cs : Text} (h : RunsWithin m cs) (hn : m ≤ n) :
    RunsWithin n cs :=
  fun run hrun hd => Nat.le_trans (h run hrun hd) hn

/-- A character that is no digit stands between runs. -/
theorem Text.RunsWithin.cut {n : Nat} {cs ds : Text} {c : Char} (h : RunsWithin n cs)
    (hc : isDigit c = false) (h' : RunsWithin n ds) : RunsWithin n (cs ++ c :: ds) := by
  rintro run ⟨front, back, heq⟩ hd
  have hrun : c ∉ run := Mark.not_mem_of_digits hd hc
  rcases List.append_eq_append_iff.mp heq with ⟨left, hleft, -⟩ | ⟨left, hleft, hback⟩
  · exact h run ⟨front, left, hleft.symm⟩ hd
  · cases left with
    | nil => exact h run ⟨front, [], by simpa using hleft⟩ hd
    | cons d left =>
      obtain ⟨rfl, rfl⟩ := List.cons.inj hback
      rcases List.append_eq_append_iff.mp hleft with ⟨more, hmore, hcut⟩ | ⟨more, hmore, hcut⟩
      · exact absurd (hcut ▸ List.mem_append_right _ List.mem_cons_self) hrun
      · cases more with
        | nil =>
          have hhead : c :: left = run := hcut
          exact absurd (hhead ▸ List.mem_cons_self) hrun
        | cons e more =>
          obtain ⟨-, rfl⟩ := List.cons.inj hcut
          exact h' run ⟨more, back, rfl⟩ hd

theorem Text.digitsValue_lt_hundred {digits : Text} (h : digits.length ≤ 2) :
    digitsValue digits < 100 := by
  have hd (c : Char) : (digitValue? c).getD 0 ≤ 9 := by
    cases hv : digitValue? c with
    | none => exact Nat.zero_le 9
    | some v => exact Nat.le_of_lt_succ (digitValue?_lt c v hv)
  match digits, h with
  | [], _ => exact Nat.zero_lt_succ 99
  | [a], _ =>
    have ha := hd a
    show 10 * 0 + (digitValue? a).getD 0 < 100
    omega
  | [a, b], _ =>
    have ha := hd a
    have hb := hd b
    show 10 * (10 * 0 + (digitValue? a).getD 0) + (digitValue? b).getD 0 < 100
    omega

/-- Numbers have no more digits than can be read when no run of digits has more: in the text, in the
text once stored markup is put in, and in the text once all marks are resolved. -/
theorem Anchor.withinLimit_of_runs {stash : Stash} {cs : Text} (h : RunsWithin digitLimit cs)
    (hraw : ∀ resolved, resolveRaw stash cs = .ok resolved → RunsWithin digitLimit resolved)
    (hshown : ∀ shown, (resolveRaw stash cs).bind Mark.unescape = .ok shown →
      RunsWithin digitLimit shown) : WithinLimit stash cs where
  decimals := by
    rintro digits ⟨hlong, hdecimal, hplace⟩
    have hdigits (d : Char) (hd : d ∈ digits) : isDigit d = true :=
      Mark.isDigit_of_isAsciiDigit d (hdecimal d hd)
    refine absurd hlong (Nat.not_lt_of_le ?_)
    rcases hplace with hmark | ⟨shown, hok, hreference⟩
    · refine h digits (List.IsInfix.trans ?_ hmark) hdigits
      exact ⟨Mark.opening :: Mark.rawWord, [], List.append_nil _⟩
    · refine hshown shown hok digits (List.IsInfix.trans ?_ hreference) hdigits
      exact ⟨['&', '#'], [], List.append_nil _⟩
  escapes := by
    intro resolved front digits hok hat
    exact hraw resolved hok digits hat.digits_infix hat.digit

end Changelog
