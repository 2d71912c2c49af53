import Changelog.Markdown.Raw.Extract
import Changelog.Proofs.Marks.Fences

/-!
# Marks of extracted markup

Blocks of markup are stored after fenced code, from a source whose marks are all marks of stored
markup.  The scan cuts its source behind a bracket, in front of one, or where a character follows that
does not go on with a mark, so what it puts out, holds back and stores has no other marks either.
-/

namespace Changelog

open Text

namespace Mark

/-- Whether a text is parted where no mark is, as far as the two characters at the place tell. -/
def Parted (front rest : Text) : Prop :=
  (∀ c ∈ rest.head?, isInner c = false) ∨
    ∀ c ∈ front.getLast?, isInner c = false ∧ c ≠ opening

theorem Parted.append {front middle rest : Text} (h : Parted front (middle ++ rest))
    (h' : Parted middle rest) : Parted (front ++ middle) rest := by
  rcases List.eq_nil_or_concat middle with rfl | ⟨before, last, rfl⟩
  · rwa [List.append_nil]
  · refine h'.imp id fun hlast c hc => hlast c ?_
    rw [List.concat_eq_append] at hc ⊢
    rw [← List.append_assoc, List.getLast?_concat] at hc
    rwa [List.getLast?_concat]

namespace OnlyRaw

variable {least : Nat} {cs ds : Text}

theorem nil : OnlyRaw least [] :=
  trivial

/-- A text is cut behind the characters of a class that all characters of marks are of. -/
theorem span {p : Char → Bool} (h : OnlyRaw least cs)
    (hp : ∀ c, isInner c = true → p c = true) : OnlyRaw least (spanWhile p cs).1 := by
  obtain ⟨hcs, -, hhead⟩ := spanWhile_spec (rfl : spanWhile p cs = (_, _))
  rw [hcs] at h
  refine h.cut fun c hc => Bool.eq_false_iff.mpr fun hi => ?_
  have hout := hhead c hc
  rw [hp c hi] at hout
  cases hout

/-- A text is cut where no mark is. -/
theorem parted (h : OnlyRaw least (cs ++ ds)) (hp : Parted cs ds) : OnlyRaw least cs := by
  rcases hp with hp | hp
  · exact h.cut hp
  · rcases List.eq_nil_or_concat cs with rfl | ⟨before, last, rfl⟩
    · exact nil
    · rw [List.concat_eq_append] at h hp ⊢
      rw [List.append_assoc] at h
      obtain ⟨hi, ho⟩ := hp last List.getLast?_concat
      exact h.through hi ho

/-- A text is cut behind the closing bracket that a search from a place on finds. -/
theorem take_through {n : Nat} {inside more : Text} {c : Char} (h : OnlyRaw least cs)
    (hs : spanWhile (· != '>') (cs.drop n) = (inside, c :: more)) :
    OnlyRaw least (cs.take (inside.length + (n + 1))) := by
  obtain ⟨hdrop, -, hhead⟩ := spanWhile_spec hs
  have hc : c = '>' := by simpa using hhead c rfl
  have hn : n ≤ cs.length := by
    have hlength := congrArg List.length hdrop
    simp only [List.length_drop, List.length_append, List.length_cons] at hlength
    omega
  have hsplit : cs = (cs.take n ++ inside) ++ '>' :: more := by
    rw [List.append_assoc, ← hc, ← hdrop, List.take_append_drop]
  have hcut : OnlyRaw least ((cs.take n ++ inside) ++ ['>']) := by
    rw [hsplit] at h
    exact h.through
  have hlength : inside.length + (n + 1) = ((cs.take n ++ inside) ++ ['>']).length := by
    simp only [List.length_append, List.length_take, List.length_singleton]
    omega
  have htake : cs.take (inside.length + (n + 1)) = (cs.take n ++ inside) ++ ['>'] := by
    rw [hlength]
    exact List.prefix_iff_eq_take.mp ⟨more, by
      rw [List.append_assoc, List.singleton_append, ← hsplit]⟩ |>.symm
  rw [htake]
  exact hcut

theorem flatten {pieces : List Text} (h : ∀ piece ∈ pieces, OnlyRaw least piece) :
    OnlyRaw least pieces.flatten := by
  induction pieces with
  | nil => trivial
  | cons piece pieces ih =>
    obtain ⟨hpiece, hothers⟩ := List.forall_mem_cons.mp h
    exact hpiece.append (ih hothers)

end OnlyRaw

end Mark

/-! ### Lower case -/

namespace Text

theorem ofNat_ne_opening {n : Nat} (hn : 2 < n) : Char.ofNat n ≠ Mark.opening := by
  unfold Char.ofNat
  by_cases hv : n.isValidChar
  · rw [dif_pos hv]
    intro heq
    have hcode : n = 2 := congrArg Char.toNat heq
    omega
  · rw [dif_neg hv]
    decide

/-- No capital has the start of a mark for its small letter. -/
theorem lowerSimple_ne_opening {c : Char} (h : c ≠ Mark.opening) :
    lowerSimple c ≠ Mark.opening := by
  unfold lowerSimple
  split
  · exact ofNat_ne_opening (by omega)
  · split
    · exact h
    · split
      · next n hn =>
        obtain ⟨run, hrun, happly⟩ := List.exists_of_findSome?_eq_some hn
        have hall : ∀ r ∈ lowerRuns, 2 < r.image := by decide +kernel
        unfold LowerRun.apply? at happly
        split at happly
        · cases happly
          exact ofNat_ne_opening (Nat.lt_add_right _ (hall run hrun))
        · cases happly
      · exact h

end Text

/-- No character of a mark has another small letter. -/
theorem Text.lowerAfter_inner {front : Text} (h : ∀ c ∈ front, Mark.isInner c = true)
    (before rest : Text) :
    ∃ before', lowerAfter before (front ++ rest) = front ++ lowerAfter before' rest := by
  induction front generalizing before with
  | nil => exact ⟨before, rfl⟩
  | cons c front ih =>
    obtain ⟨hc, hothers⟩ := List.forall_mem_cons.mp h
    have hsmall := Mark.class_of_isInner
      (p := fun c => c != capitalSigma && c != capitalDottedI && lowerSimple c == c)
      (by decide +kernel) c hc
    simp only [Bool.and_eq_true, bne_iff_ne, beq_iff_eq] at hsmall
    obtain ⟨before', hrest⟩ := ih hothers (c :: before)
    refine ⟨before', ?_⟩
    rw [List.cons_append, lowerAfter, if_neg hsmall.1.1, if_neg hsmall.1.2, hsmall.2, hrest]
    rfl

theorem Mark.OnlyRaw.lower {least : Nat} {cs : Text} (h : OnlyRaw least cs) :
    OnlyRaw least (lower cs) := by
  unfold Text.lower
  generalize ([] : Text) = before
  induction cs generalizing before with
  | nil => trivial
  | cons c cs ih =>
    unfold lowerAfter
    dsimp only
    by_cases hc : c = opening
    · subst hc
      obtain ⟨n, more, hn, rfl⟩ := h.1 rfl
      obtain ⟨before', hlower⟩ := Text.lowerAfter_inner (Body.raw hn).inner_closed
        (opening :: before) more
      refine ⟨fun _ => ?_, ih h.2 _⟩
      rw [List.append_assoc, List.singleton_append] at hlower
      exact ⟨n, lowerAfter before' more, hn, by
        rw [hlower, List.append_assoc _ [closing], List.singleton_append]
        rfl⟩
    · refine append (of_not_mem ?_) (ih h.2 _)
      split
      · split <;> decide
      · split
        · decide
        · exact fun hm => lowerSimple_ne_opening hc (List.mem_singleton.mp hm).symm

/-! ### Tags -/

namespace Raw

namespace Cursor

/-- A cursor further on in the same text, at a place where no mark is if the first one is. -/
def Leads (a b : Cursor) : Prop :=
  ∃ front, a.rest = front ++ b.rest ∧ b.taken = a.taken + front.length ∧
    Mark.Parted front b.rest

/-- A class that marks are in with all their characters, or with none. -/
def Parts (p : Char → Bool) : Prop :=
  (∀ c, Mark.isInner c = true → p c = true) ∨
    ∀ c, p c = true → Mark.isInner c = false ∧ c ≠ Mark.opening

theorem Leads.refl (a : Cursor) : a.Leads a :=
  ⟨[], rfl, rfl, Or.inr fun _ hc => nomatch hc⟩

theorem Leads.trans {a b c : Cursor} (h : a.Leads b) (h' : b.Leads c) : a.Leads c := by
  obtain ⟨front, hrest, htaken, hparted⟩ := h
  obtain ⟨front', hrest', htaken', hparted'⟩ := h'
  refine ⟨front ++ front', by rw [hrest, hrest', List.append_assoc], ?_, ?_⟩
  · rw [htaken', htaken, List.length_append, Nat.add_assoc]
  · rw [hrest'] at hparted
    exact hparted.append hparted'

/-- What is skipped are characters of the class, and the cursor keeps the last of them. -/
theorem skip_spec (p : Char → Bool) (a : Cursor) :
    ∃ front, a.rest = front ++ (a.skip p).rest ∧ (a.skip p).taken = a.taken + front.length ∧
      (a.skip p).last = front.getLastD a.last ∧ (∀ c ∈ front, p c = true) ∧
      ∀ c ∈ (a.skip p).rest.head?, p c = false := by
  have hfrom (cs : Text) (last : Char) (taken : Nat) : ∃ front,
      cs = front ++ (skipFrom p last taken cs).rest ∧
        (skipFrom p last taken cs).taken = taken + front.length ∧
        (skipFrom p last taken cs).last = front.getLastD last ∧ (∀ c ∈ front, p c = true) ∧
        ∀ c ∈ (skipFrom p last taken cs).rest.head?, p c = false := by
    induction cs generalizing last taken with
    | nil => exact ⟨[], rfl, rfl, rfl, List.forall_mem_nil _, fun _ hc => nomatch hc⟩
    | cons c cs ih =>
      unfold skipFrom
      split
      · next hc =>
        obtain ⟨front, hcs, htaken, hlast, hall, hhead⟩ := ih c (taken + 1)
        refine ⟨c :: front, congrArg (c :: ·) hcs, ?_, ?_, List.forall_mem_cons.mpr ⟨hc, hall⟩,
          hhead⟩
        · rw [htaken, List.length_cons, Nat.add_assoc, Nat.add_comm 1]
        · rw [hlast, List.getLastD_cons]
      · next hc =>
        exact ⟨[], rfl, rfl, rfl, List.forall_mem_nil _,
          fun d hd => Option.some.inj hd ▸ Bool.eq_false_iff.mpr hc⟩
  exact hfrom a.rest a.last a.taken

/-- A skip over a class that marks are in ends where no mark is, wherever it began. -/
theorem leads_skip_over {p : Char → Bool} {a b : Cursor} (front : Text)
    (hp : ∀ c, Mark.isInner c = true → p c = true) (hrest : a.rest = front ++ b.rest)
    (htaken : b.taken = a.taken + front.length) : a.Leads (b.skip p) := by
  obtain ⟨more, hrest', htaken', -, -, hhead⟩ := skip_spec p b
  refine ⟨front ++ more, by rw [hrest, List.append_assoc, ← hrest'], ?_, Or.inl ?_⟩
  · rw [htaken', htaken, List.length_append, Nat.add_assoc]
  · refine fun c hc => Bool.eq_false_iff.mpr fun hi => ?_
    have hout := hhead c hc
    rw [hp c hi] at hout
    cases hout

theorem leads_skip {p : Char → Bool} (hp : Parts p) (a : Cursor) : a.Leads (a.skip p) := by
  rcases hp with hp | hp
  · exact leads_skip_over [] hp rfl rfl
  · obtain ⟨front, hrest, htaken, -, hall, -⟩ := skip_spec p a
    exact ⟨front, hrest, htaken, Or.inr fun c hc => hp c (hall c (List.mem_of_getLast? hc))⟩

/-- Where a skip moved on, the cursor may go one character back. -/
theorem leads_back {p : Char → Bool} (hp : ∀ c, p c = true → Mark.isInner c = false)
    {a : Cursor} (h : a.taken < (a.skip p).taken) (last : Char) : p (a.skip p).last = true ∧
      a.Leads ⟨last, (a.skip p).taken - 1, (a.skip p).last :: (a.skip p).rest⟩ := by
  obtain ⟨front, hrest, htaken, hlast, hall, -⟩ := skip_spec p a
  rcases List.eq_nil_or_concat front with rfl | ⟨before, c, rfl⟩
  · exact absurd htaken (Nat.ne_of_gt h)
  · rw [List.concat_eq_append] at hrest htaken hlast hall
    rw [List.getLastD_concat] at hlast
    have hc : p (a.skip p).last = true := by
      rw [hlast]
      exact hall c (List.mem_append_right _ (List.mem_singleton_self c))
    refine ⟨hc, before, ?_, ?_, Or.inl fun d hd => ?_⟩
    · rw [hrest, hlast, List.append_assoc, List.singleton_append]
    · rw [htaken, List.length_append, List.length_singleton]
      exact Nat.add_sub_cancel (a.taken + before.length) 1
    · exact Option.some.inj hd ▸ hp _ hc

theorem pass?_spec {p : Char → Bool} {a b : Cursor} (h : a.pass? p = some b) :
    ∃ c, p c = true ∧ a.rest = [c] ++ b.rest ∧ b.taken = a.taken + 1 := by
  unfold pass? at h
  split at h
  · next c cs hr =>
    split at h
    · next hc =>
      cases h
      exact ⟨c, hc, hr, rfl⟩
    · cases h
  · cases h

theorem leads_pass? {p : Char → Bool}
    (hp : ∀ c, p c = true → Mark.isInner c = false ∧ c ≠ Mark.opening) {a b : Cursor}
    (h : a.pass? p = some b) : a.Leads b := by
  obtain ⟨c, hc, hrest, htaken⟩ := pass?_spec h
  exact ⟨[c], hrest, htaken, Or.inr fun d hd => Option.some.inj hd ▸ hp c hc⟩

theorem outside_space {c : Char} (h : isSpace c = true) :
    Mark.isInner c = false ∧ c ≠ Mark.opening := by
  refine ⟨Mark.isInner_of_isSpace h, fun hc => ?_⟩
  rw [hc] at h
  revert h
  decide

theorem outside_eq {c d : Char} (hi : Mark.isInner d = false := by decide)
    (ho : d ≠ Mark.opening := by decide) (h : (c == d) = true) :
    Mark.isInner c = false ∧ c ≠ Mark.opening :=
  beq_iff_eq.mp h ▸ ⟨hi, ho⟩

theorem outside_gap {c : Char} (h : (isSpace c || c == '/') = true) :
    Mark.isInner c = false ∧ c ≠ Mark.opening := by
  rcases Bool.or_eq_true_iff.mp h with h | h
  · exact outside_space h
  · exact outside_eq (by decide) (by decide) h

theorem leads_skipGap (a : Cursor) : a.Leads a.skipGap := by
  have hfrom (cs : Text) (last : Char) (taken : Nat) :
      Leads ⟨last, taken, cs⟩ (skipGapFrom last taken cs) := by
    induction cs generalizing last taken with
    | nil => exact .refl _
    | cons c cs ih =>
      unfold skipGapFrom
      split
      · next hc =>
        have hgap : (isSpace c || c == '/') = true := by
          rw [Bool.or_eq_true, Bool.and_eq_true] at hc
          exact Bool.or_eq_true_iff.mpr (hc.imp id And.left)
        exact Leads.trans ⟨[c], rfl, rfl, Or.inr fun d hd => Option.some.inj hd ▸ outside_gap hgap⟩
          (ih c (taken + 1))
      · exact .refl _
  exact hfrom a.rest a.last a.taken

end Cursor

open Cursor

theorem parts_space : Parts isSpace :=
  Or.inr fun _ => outside_space

theorem isBareChar_inner (manner : Manner) :
    ∀ c, Mark.isInner c = true → isBareChar manner c = true := by
  have hall (ticks : Bool) : ∀ c, Mark.isInner c = true → isBareChar ⟨ticks, false⟩ c = true := by
    cases ticks <;> exact Mark.class_of_isInner (by decide)
  exact hall manner.ticks

theorem leads_quotedValue? {mark : Char} (hi : Mark.isInner mark = false)
    (ho : mark ≠ Mark.opening) {a b : Cursor} (h : quotedValue? mark a = some b) :
    a.Leads b := by
  obtain ⟨inside, hinside, hb⟩ := Option.bind_eq_some_iff.mp h
  have hpass {a b : Cursor} (h : a.pass? (· == mark) = some b) : a.Leads b :=
    leads_pass? (fun _ hc => outside_eq hi ho hc) h
  have hinner : Parts (· != mark) :=
    Or.inl fun c hc => bne_iff_ne.mpr (Mark.ne_of_isInner hc hi)
  exact (hpass hinside).trans ((leads_skip hinner _).trans (hpass hb))

theorem leads_skipCommas (steps : Nat) (a : Cursor) : a.Leads (skipCommas steps a) := by
  fun_induction skipCommas steps a with
  | case1 => exact .refl _
  | case2 a steps after ha ih =>
    have hcomma := leads_pass? (fun _ hc => outside_eq (by decide) (by decide) hc) ha
    exact (leads_skip parts_space _).trans (hcomma.trans ih)
  | case3 => exact .refl _

theorem leads_value? {manner : Manner} {a b : Cursor} (h : value? manner a = some b) :
    a.Leads b := by
  have hequals : Parts (· == '=') := Or.inr fun _ hc => outside_eq (by decide) (by decide) hc
  have hsigns := leads_skip hequals a
  have hspaced := hsigns.trans (leads_skip parts_space _)
  have hbare (c : Cursor) : c.Leads (c.skip (isBareChar manner)) :=
    leads_skip (Or.inl (isBareChar_inner manner)) c
  unfold value? at h
  dsimp only at h
  split at h
  · next after hq =>
    cases h
    rcases Option.or_eq_some_iff.mp hq with hq | ⟨-, hq⟩
    · exact hspaced.trans (leads_quotedValue? (by decide) (by decide) hq)
    · exact hspaced.trans (leads_quotedValue? (by decide) (by decide) hq)
  · split at h
    · split at h
      · next hmoved =>
        cases h
        exact hsigns.trans (leads_back (fun _ => Mark.isInner_of_isSpace) hmoved '=').2
      · split at h
        · next hmoved =>
          cases h
          obtain ⟨hlast, hback⟩ := leads_back (p := (· == '='))
            (fun _ hc => (outside_eq (by decide) (by decide) hc).1) (Nat.lt_of_succ_lt hmoved) '='
          rw [beq_iff_eq.mp hlast] at hback
          exact hback.trans (hbare _)
        · cases h
    · cases h
      exact hspaced.trans (hbare _)

theorem leads_passValue (manner : Manner) (steps : Nat) (a : Cursor) :
    a.Leads (passValue manner steps a) := by
  unfold passValue
  dsimp only
  split
  · split
    · next after hv =>
      have hafter := (leads_skip parts_space a).trans (leads_value? hv)
      split
      · exact hafter.trans (leads_skipCommas _ _)
      · exact hafter
    · exact .refl _
  · exact .refl _

theorem leads_attribute? {manner : Manner} {steps : Nat} {a b : Cursor}
    (h : attribute? manner steps a = some b) : a.Leads b := by
  unfold attribute? at h
  split at h
  · obtain ⟨named, hnamed, heq⟩ := Option.map_eq_some_iff.mp h
    cases heq
    -- A name may begin with a character of a mark, but it goes on to the end of that mark.
    obtain ⟨c, -, hrest, htaken⟩ := pass?_spec hnamed
    have hname := leads_skip_over (a := a) (b := named)
      (p := fun c => !(isSpace c || c == '/' || c == '=' || c == '>'))
      [c] (Mark.class_of_isInner (by decide)) hrest htaken
    exact hname.trans ((leads_passValue _ _ _).trans (leads_skipGap _))
  · cases h

theorem leads_skipAttributes (manner : Manner) (limit steps : Nat) (a : Cursor) :
    a.Leads (skipAttributes manner limit steps a) := by
  fun_induction skipAttributes manner limit steps a with
  | case1 => exact .refl _
  | case2 a steps _ after ha ih => exact (leads_attribute? ha).trans ih
  | case3 => exact .refl _
  | case4 => exact .refl _

variable {least : Nat}

/-- A tag ends with a bracket, or before a character that is no letter, where no mark is. -/
theorem onlyRaw_take_tagLength? {steps length : Nat} {cs : Text} (h : Mark.OnlyRaw least cs)
    (ht : tagLength? steps cs = some length) : Mark.OnlyRaw least (cs.take length) := by
  unfold tagLength? at ht
  dsimp only at ht
  generalize hfinal : skip isSpace _ = final at ht
  have hleads : Leads ⟨'<', 1, cs.drop 1⟩ final := by
    rw [← hfinal]
    exact (leads_skip (Or.inl (Mark.class_of_isInner (by decide))) _).trans
      ((leads_skip (Or.inr fun _ => outside_gap) _).trans
        ((leads_skipAttributes _ _ _ _).trans (leads_skip parts_space _)))
  obtain ⟨front, hrest, htaken, hparted⟩ := hleads
  have hcs {c : Char} {more : Text} (hf : final.rest = c :: more) :
      ∃ bracket, cs = (bracket :: front) ++ c :: more := by
    cases cs with
    | nil => exact absurd hrest (by simp [hf])
    | cons bracket cs =>
      rw [hf] at hrest
      exact ⟨bracket, congrArg (bracket :: ·) hrest⟩
  -- The length counts the bracket, what was passed, and the end of the tag.
  have htake (bracket : Char) (more behind : Text) :
      ((bracket :: front) ++ more ++ behind).take (final.taken + more.length) =
        (bracket :: front) ++ more := by
    refine List.take_left' ?_
    rw [htaken, List.length_append, List.length_cons, Nat.add_comm 1]
  split at ht
  · cases ht
  · next more hf =>
    cases ht
    obtain ⟨bracket, rfl⟩ := hcs hf
    have htext := htake bracket ['>'] more
    rw [List.append_assoc] at htext
    exact htext ▸ h.through
  · next more hf =>
    cases ht
    obtain ⟨bracket, rfl⟩ := hcs hf
    have htext := htake bracket ['/', '>'] more
    rw [List.append_assoc] at htext
    have hcut : Mark.OnlyRaw least ((bracket :: front) ++ ['/', '>']) :=
      h.before.append (.of_not_mem (by decide))
    exact htext ▸ hcut
  · next c more _ _ hf =>
    -- The tag is not closed: it ends before a character that is not the letter of a mark.
    split at ht
    · cases ht
    · next hc =>
      cases ht
      obtain ⟨bracket, rfl⟩ := hcs hf
      have htext := htake bracket [] (c :: more)
      rw [List.append_nil, List.length_nil, Nat.add_zero] at htext
      rw [htext]
      rw [hf] at hparted
      cases front with
      | nil =>
        refine ⟨fun ho => ?_, trivial⟩
        obtain ⟨n, behind, -, hmore⟩ := h.1 ho
        obtain ⟨rfl, -⟩ := List.cons.inj hmore
        exact absurd (by decide) hc
      | cons d front =>
        refine h.parted (hparted.imp id fun hlast e he => hlast e ?_)
        rwa [List.getLast?_cons_cons] at he

/-! ### The scan -/

/-- All marks in what is left of a source, in what a scan holds and in what it has put out and stored
are marks of stored markup. -/
structure ScanTexts (least : Nat) (rest known held : Text) (pieces : List Text)
    (stash : Stash) : Prop where
  rest : Mark.OnlyRaw least rest
  known : Mark.OnlyRaw least known
  held : Mark.OnlyRaw least held
  pieces : ∀ piece ∈ pieces, Mark.OnlyRaw least piece
  stash : stash.OnlyRaw least

/-- Whether the marks in all texts of a scan are marks of stored markup; what else the scan knows does
not matter. -/
def Scan.OnlyRaw (least : Nat) (s : Scan) : Prop :=
  ScanTexts least s.rest s.knownRest s.held s.pieces s.stash

namespace Scan

variable {s : Scan}

theorem onlyRaw_start {stash : Stash} {source : Text} (hs : stash.OnlyRaw least)
    (h : Mark.OnlyRaw least source) : (start stash source).OnlyRaw least :=
  ⟨h, h, .nil, List.forall_mem_nil _, hs⟩

namespace OnlyRaw

theorem advance (h : s.OnlyRaw least) (n : Nat) : (s.advance n).OnlyRaw least := by
  fun_induction Scan.advance s n with
  | case1 => exact h
  | case2 => exact h
  | case3 s n cs hr ih =>
    refine ih ⟨?_, h.known, h.held, h.pieces, h.stash⟩
    exact h.rest.suffix (hr ▸ List.suffix_cons _ _)
  | case4 s n c cs hr _ ih =>
    refine ih ⟨?_, h.known, h.held, h.pieces, h.stash⟩
    exact h.rest.suffix (hr ▸ List.suffix_cons _ _)

theorem lookUp (h : s.OnlyRaw least) : s.lookUp.OnlyRaw least := by
  have hnext (n start : Nat) (cs : Text) : (nextLines n start cs).2 <:+ cs := by
    fun_induction nextLines n start cs with
    | case1 => exact List.suffix_refl _
    | case2 n start cs before after hs ih =>
      have hafter := spanWhile_suffix (· != '\n') cs
      rw [hs] at hafter
      exact ih.trans ((List.drop_suffix _ _).trans hafter)
  exact ⟨h.rest, h.known.suffix (hnext _ _ _), h.held, h.pieces, h.stash⟩

theorem ahead (h : s.OnlyRaw least) (n : Nat) : Mark.OnlyRaw least (s.ahead n) :=
  h.known.suffix (List.drop_suffix _ _)

theorem atLineStart (h : s.OnlyRaw least) : s.atLineStart.2.OnlyRaw least := by
  unfold Scan.atLineStart
  split
  · exact h
  · split
    · exact h
    · exact h.lookUp

theorem put (h : s.OnlyRaw least) {piece : Text} (hp : Mark.OnlyRaw least piece) :
    (s.put piece).OnlyRaw least :=
  ⟨h.rest, h.known, h.held, List.forall_mem_cons.mpr ⟨hp, h.pieces⟩, h.stash⟩

theorem hold (h : s.OnlyRaw least) {cs : Text} (hc : Mark.OnlyRaw least cs) :
    (s.hold cs).OnlyRaw least :=
  ⟨h.rest, h.known, h.held.append hc, h.pieces, h.stash⟩

theorem readData (h : s.OnlyRaw least) {data : Text} (hd : Mark.OnlyRaw least data) :
    (s.readData data).OnlyRaw least := by
  have htail : (if data.contains '\n' then { s with inTail := false } else s).OnlyRaw least := by
    split
    · exact h
    · exact h
  unfold Scan.readData
  dsimp only
  generalize (if data.contains '\n' then { s with inTail := false } else s) = s at htail
  split
  · exact htail.hold hd
  · split
    · exact htail.put hd
    · exact htail.put hd

theorem storeBlock (h : s.OnlyRaw least) {markup : Text} (hm : Mark.OnlyRaw least markup) :
    (s.storeBlock markup).OnlyRaw least := by
  refine ⟨h.rest, h.known, h.held, ?_, h.stash.store hm⟩
  exact List.forall_mem_cons.mpr ⟨.of_not_mem (by decide),
    List.forall_mem_cons.mpr ⟨.raw h.stash.counted, h.pieces⟩⟩

theorem readEmpty (h : s.OnlyRaw least) {data : Text} (hd : Mark.OnlyRaw least data)
    (mayBlock : Bool) : (s.readEmpty data mayBlock).OnlyRaw least := by
  unfold Scan.readEmpty
  split
  · exact h.hold hd
  · have hstart := h.atLineStart
    generalize s.atLineStart = found at hstart
    obtain ⟨starts, s⟩ := found
    dsimp only at hstart ⊢
    split
    · have hbreak {t : Scan} (ht : t.OnlyRaw least) :
          (if t.endsWithOneBreak then t.put ['\n'] else t).OnlyRaw least := by
        split
        · exact ht.put (.of_not_mem (by decide))
        · exact ht
      have hlook := hstart.lookUp
      split
      · exact (hbreak hlook).storeBlock (hd.append (.of_not_mem (by decide)))
      · exact (hbreak (t := { s.lookUp with inTail := true }) hlook).storeBlock hd
    · exact hstart.put hd

theorem readOpening (h : s.OnlyRaw least) (tag : String) {text : Text}
    (ht : Mark.OnlyRaw least text) : (s.readOpening tag text).OnlyRaw least := by
  have hfound : (if isBlockTag tag.toList then if s.inTail then (true, s) else s.atLineStart
      else (false, s)).2.OnlyRaw least := by
    split
    · split
      · exact h
      · exact h.atLineStart
    · exact h
  unfold Scan.readOpening
  generalize (if isBlockTag tag.toList then if s.inTail then (true, s) else s.atLineStart
    else (false, s)) = found at hfound
  obtain ⟨starts, s⟩ := found
  have hbegun :
      (if starts then ({ s with inBlock := true } : Scan).put ['\n'] else s).OnlyRaw least := by
    split
    · exact put (s := { s with inBlock := true }) hfound (.of_not_mem (by decide))
    · exact hfound
  dsimp only
  generalize (if starts then ({ s with inBlock := true } : Scan).put ['\n'] else s) = s at hbegun
  split
  · exact hbegun.hold ht
  · exact hbegun.put ht

theorem closingText (h : s.OnlyRaw least) {tag : String} (ht : Mark.OnlyRaw least tag.toList) :
    Mark.OnlyRaw least (s.closingText tag) := by
  have hfront := h.ahead 0
  unfold Scan.closingText
  split
  · next inside c more hs =>
    have hspan := hfront.span (p := (· != '>')) (Mark.class_of_isInner (by decide))
    rw [hs] at hspan
    exact hspan.append (.of_not_mem (by decide))
  · exact (Mark.OnlyRaw.append (.of_not_mem (by decide)) ht).append (.of_not_mem (by decide))

theorem readClosing (h : s.OnlyRaw least) {tag : String} (ht : Mark.OnlyRaw least tag.toList) :
    (s.readClosing tag).OnlyRaw least := by
  have hlook := h.lookUp
  have htext := hlook.closingText ht
  unfold Scan.readClosing
  dsimp only
  generalize s.lookUp = s at hlook htext
  split
  · have hheld := hlook.hold htext
    split
    · let closed : Scan := { s.hold (s.closingText tag) with opened := Scan.close tag s.opened }
      have hend : (if beginsBlank (closed.ahead (s.closingText tag).length) then closed.hold ['\n']
          else { closed with inTail := true }).OnlyRaw least := by
        split
        · exact hold (s := closed) hheld (.of_not_mem (by decide))
        · exact hheld
      have hstored := hend.storeBlock hend.held
      exact ⟨hstored.rest, hstored.known, .nil, hstored.pieces, hstored.stash⟩
    · exact hheld
  · exact hlook.put htext

/-! ### Constructs -/

theorem readUnclosed (h : s.OnlyRaw least) : s.readUnclosed.1.OnlyRaw least :=
  h.readData (.of_not_mem (by decide))

theorem readTagTurn (h : s.OnlyRaw least) (steps : Nat) : (s.readTagTurn steps).1.OnlyRaw least := by
  unfold Scan.readTagTurn
  split
  · exact h.readData (.of_not_mem (by decide))
  · split
    · exact h.readUnclosed
    · next length hlength =>
      have htext := onlyRaw_take_tagLength? h.rest hlength
      dsimp only
      split
      · exact h.readData htext
      · exact h.readEmpty htext _
      · next tag _ =>
        have hopened : (if verbatimTags.contains tag then { s with verbatim := some tag }
            else s).OnlyRaw least := by
          split
          · exact h
          · exact h
        split
        · exact hopened.readEmpty htext _
        · exact hopened.readOpening tag htext

theorem opening_not_mem_span {p : Char → Bool} (hp : p Mark.opening = false) (cs : Text) :
    Mark.opening ∉ (spanWhile p cs).1 := by
  obtain ⟨-, hall, -⟩ := spanWhile_spec (rfl : spanWhile p cs = (_, _))
  intro hm
  rw [hall _ hm] at hp
  cases hp

theorem readClosingTurn (h : s.OnlyRaw least) : s.readClosingTurn.1.OnlyRaw least := by
  have hslash : Mark.OnlyRaw least ['<', '/'] := .of_not_mem (by decide)
  unfold Scan.readClosingTurn
  split
  · next c more hr =>
    split
    · exact h.readData hslash
    · split
      · exact h.readUnclosed
      · next inside d behind hs =>
        have hrest : Mark.OnlyRaw least (c :: more) :=
          h.rest.suffix (hr ▸ List.suffix_append ['<', '/'] (c :: more))
        have hinside : Mark.OnlyRaw least inside := by
          have hspan := hrest.span (p := (· != '>')) (Mark.class_of_isInner (by decide))
          rwa [hs] at hspan
        have htag : Mark.OnlyRaw least (if (spanWhile isClosingChar inside).2.all isSpace then
            String.ofList (Text.lower (spanWhile isClosingChar inside).1) else
              String.ofList (Text.lower (spanWhile (isTagChar .loose) inside).1)).toList := by
          split
          · rw [String.toList_ofList]
            exact (Mark.OnlyRaw.of_not_mem (opening_not_mem_span (by decide) inside)).lower
          · rw [String.toList_ofList]
            exact (hinside.span (Mark.class_of_isInner (by decide))).lower
        have htext : Mark.OnlyRaw least (s.rest.take (inside.length + 3)) :=
          h.rest.take_through (n := 2) (by rw [hr]; exact hs)
        dsimp only
        generalize (if (spanWhile isClosingChar inside).2.all isSpace then _ else _) = tag at htag ⊢
        split
        · split
          · exact h.readClosing htag
          · exact h.readData htext
        · exact h.readClosing htag
  · exact h.readData hslash

/-- The body of a comment ends in front of a dash. -/
theorem commentEnd?_spec {n length closing : Nat} {cs : Text} :
    commentEnd? n cs = some (length, closing) →
      n ≤ length ∧ ∃ more, cs.drop (length - n) = '-' :: more := by
  fun_induction commentEnd? n cs with
  | case1 n cs closing' found hf =>
    intro h
    cases h
    have hdash {lead cs : Text} (hs : startsWith cs ('-' :: lead) = true) :
        ∃ more, cs = '-' :: more := by
      obtain ⟨rest, hrest⟩ := Option.isSome_iff_exists.mp hs
      exact ⟨lead ++ rest, (after?_eq_some_iff _ _ _).mp hrest⟩
    have hend : n = length ∧ ∃ more, cs = '-' :: more := by
      dsimp only [closing'] at hf
      split at hf
      · next hs =>
        cases hf
        exact ⟨rfl, hdash hs⟩
      · split at hf
        · next hs =>
          cases hf
          exact ⟨rfl, hdash hs⟩
        · cases hf
    obtain ⟨rfl, hmore⟩ := hend
    rw [Nat.sub_self]
    exact ⟨Nat.le_refl n, hmore⟩
  | case2 => exact fun h => nomatch h
  | case3 n c cs _ _ ih =>
    intro h
    obtain ⟨hle, more, hmore⟩ := ih h
    have hsub : length - n = length - (n + 1) + 1 := by omega
    rw [hsub]
    exact ⟨Nat.le_of_succ_le hle, more, hmore⟩

theorem abruptEnd?_spec {cs : Text} {length closing : Nat}
    (h : abruptEnd? cs = some (length, closing)) : length = 0 := by
  unfold abruptEnd? at h
  split at h
  · cases h
    rfl
  · cases h
    rfl
  · cases h

theorem readCommentTurn (h : s.OnlyRaw least) : s.readCommentTurn.1.OnlyRaw least := by
  have hinside : Mark.OnlyRaw least (s.rest.drop 4) := h.rest.suffix (List.drop_suffix _ _)
  unfold Scan.readCommentTurn
  dsimp only
  split
  · exact h.readUnclosed
  · next length closing hend =>
    have hdata : Mark.OnlyRaw least ((s.rest.drop 4).take length) := by
      rcases Option.or_eq_some_iff.mp hend with hend | ⟨-, hend⟩
      · obtain ⟨-, more, hmore⟩ := commentEnd?_spec hend
        rw [Nat.sub_zero] at hmore
        rw [← List.take_append_drop length (s.rest.drop 4), hmore] at hinside
        exact hinside.before
      · rw [abruptEnd?_spec hend]
        exact .nil
    split
    · exact h.lookUp.readEmpty ((Mark.OnlyRaw.append (.of_not_mem (by decide)) hdata).append
        (.of_not_mem (by decide))) _
    · exact h.lookUp.readUnclosed

theorem started (h : s.OnlyRaw least) :
    (if s.inTail then (true, s) else s.atLineStart).2.OnlyRaw least := by
  split
  · exact h
  · exact h.atLineStart

theorem readInstructionTurn (h : s.OnlyRaw least) : s.readInstructionTurn.1.OnlyRaw least := by
  have hfound := h.started
  unfold Scan.readInstructionTurn
  generalize (if s.inTail then (true, s) else s.atLineStart) = found at hfound
  obtain ⟨starts, s⟩ := found
  dsimp only at hfound ⊢
  split
  · split
    · exact hfound.readUnclosed
    · next inside behind hs =>
      have hrest : Mark.OnlyRaw least (s.rest.drop 2) := hfound.rest.suffix (List.drop_suffix _ _)
      rw [splitFirst?_eq _ _ _ _ hs, List.append_assoc] at hrest
      exact hfound.readEmpty ((Mark.OnlyRaw.append (.of_not_mem (by decide))
        hrest.before).append (.of_not_mem (by decide))) _
  · exact hfound.readData (.of_not_mem (by decide))

theorem readBogus (h : s.OnlyRaw least) : s.readBogus.1.OnlyRaw least := by
  unfold Scan.readBogus
  split
  · exact h.readUnclosed
  · next hs => exact h.readEmpty (h.rest.take_through hs) _

theorem sectionEnd?_spec (cs : Text) : ∀ inside closing,
    sectionEnd? cs = some (inside, closing) → ∃ more, cs = inside ++ ']' :: more := by
  fun_induction sectionEnd? cs with
  | case1 => exact fun _ _ h => nomatch h
  | case2 c cs closing' length hl =>
    intro inside closing h
    cases h
    dsimp only [closing'] at hl
    split at hl
    · next hc => exact ⟨cs, by rw [hc, List.nil_append]⟩
    · cases hl
  | case3 c cs _ _ ih =>
    intro inside closing h
    obtain ⟨⟨inside, length⟩, hr, heq⟩ := Option.map_eq_some_iff.mp h
    cases heq
    obtain ⟨more, hmore⟩ := ih _ _ hr
    exact ⟨more, congrArg (c :: ·) hmore⟩

theorem readDeclarationTurn (h : s.OnlyRaw least) : s.readDeclarationTurn.1.OnlyRaw least := by
  have hfound := h.started
  unfold Scan.readDeclarationTurn
  generalize (if s.inTail then (true, s) else s.atLineStart) = found at hfound
  obtain ⟨starts, s⟩ := found
  dsimp only at hfound ⊢
  split
  · exact hfound.readData (.of_not_mem (by decide))
  · split
    · split
      · exact hfound.readUnclosed
      · next inside closing hend =>
        have hinside : Mark.OnlyRaw least inside := by
          have hrest : Mark.OnlyRaw least (s.rest.drop 3) := hfound.rest.suffix (List.drop_suffix _ _)
          obtain ⟨more, hmore⟩ := sectionEnd?_spec _ _ _ hend
          rw [hmore] at hrest
          exact hrest.before
        exact hfound.readEmpty ((Mark.OnlyRaw.append (.of_not_mem (by decide)) hinside).append
          (.of_not_mem (by decide))) _
    · split
      · exact hfound.readBogus
      · split
        · split
          · exact hfound.readUnclosed
          · next hs => exact hfound.readEmpty (hfound.rest.take_through hs) _
        · exact hfound.readBogus

theorem readBracket (h : s.OnlyRaw least) (steps : Nat) : (s.readBracket steps).1.OnlyRaw least := by
  unfold Scan.readBracket
  split
  · exact h.readTagTurn steps
  · split
    · exact h.readClosingTurn
    · split
      · exact h.readCommentTurn
      · split
        · exact h.readInstructionTurn
        · split
          · exact h.readDeclarationTurn
          · exact h.readData (.of_not_mem (by decide))

theorem opening_not_mem_readNumber? {cs body : Text} {count : Nat}
    (h : readNumber? cs = some (body, count)) : Mark.opening ∉ body := by
  unfold readNumber? at h
  dsimp only at h
  split at h
  · next x hs =>
    split at h
    · next hx =>
      obtain ⟨⟨digits, length⟩, hr, heq⟩ := Option.map_eq_some_iff.mp h
      cases heq
      have hdigits := opening_not_mem_span (p := isHexDigit) (by decide) hs
      split at hr
      · next hspan =>
        split at hr
        · cases hr
        · cases hr
          rw [List.mem_cons, not_or]
          refine ⟨?_, hdigits⟩
          rcases hx with rfl | rfl <;> decide
      · cases hr
    · have hdigits := opening_not_mem_span (p := isAsciiDigit) (by decide) (x :: hs)
      split at h
      · split at h
        · cases h
        · cases h
          exact hdigits
      · cases h
  · cases h

theorem opening_not_mem_readName? {cs name : Text} (h : readName? cs = some name) :
    Mark.opening ∉ name := by
  unfold readName? at h
  split at h
  · next c rest =>
    split at h
    · split at h
      · next found more hs =>
        cases h
        have hname := opening_not_mem_span
          (p := fun c => c.isAlphanum || c == '-' || c == '.') (by decide) (c :: rest)
        rwa [hs] at hname
      · cases h
    · cases h
  · cases h

theorem readReference_turn (h : s.OnlyRaw least) {turn : Turn} (ht : s.readReference = .ok turn) :
    turn.1.OnlyRaw least := by
  unfold Scan.readReference at ht
  split at ht
  · next more hr =>
    split at ht
    · next body count hn =>
      cases ht
      exact h.readEmpty ((Mark.OnlyRaw.append (.of_not_mem (by decide))
        (.of_not_mem (opening_not_mem_readNumber? hn))).append (.of_not_mem (by decide))) _
    · cases ht
  · next more _ hr =>
    split at ht
    · next name hn =>
      cases ht
      have hampersand : Mark.OnlyRaw least ['&'] := .of_not_mem (by decide)
      exact h.readEmpty ((hampersand.append (.of_not_mem (opening_not_mem_readName? hn))).append
        (.of_not_mem (by decide))) _
    · split at ht
      · cases ht
      · cases ht
        exact h.readData (.of_not_mem (by decide))
  · cases ht

theorem readReference_stop (h : s.OnlyRaw least) {t : Scan} (ht : s.readReference = .error t) :
    t.OnlyRaw least := by
  unfold Scan.readReference at ht
  split at ht
  · split at ht
    · cases ht
    · cases ht
      split
      · exact (h.readData (.of_not_mem (by decide))).advance 2
      · exact h
  · split at ht
    · cases ht
    · split at ht
      · cases ht
        exact h
      · cases ht
  · cases ht
    exact h

theorem verbatimText?_spec (tag : String) (cs : Text) : ∀ text,
    verbatimText? tag cs = some text → ∃ more, cs = text ++ '<' :: more := by
  fun_induction verbatimText? tag cs with
  | case1 => exact fun _ h => nomatch h
  | case2 c cs closes hc =>
    intro text h
    cases h
    dsimp only [closes] at hc
    split at hc
    · next hin => exact ⟨_, (after?_eq_some_iff "</".toList _ _).mp hin⟩
    · cases hc
  | case3 c cs _ _ ih =>
    intro text h
    obtain ⟨text, ht, heq⟩ := Option.map_eq_some_iff.mp h
    cases heq
    obtain ⟨more, hmore⟩ := ih _ ht
    exact ⟨more, congrArg (c :: ·) hmore⟩

theorem plainText? (h : s.OnlyRaw least) {text : Text} (ht : s.plainText? = some text) :
    Mark.OnlyRaw least text := by
  unfold Scan.plainText? at ht
  split at ht
  · next tag _ =>
    obtain ⟨more, hmore⟩ := verbatimText?_spec _ _ _ ht
    have hrest := h.rest
    rw [hmore] at hrest
    exact hrest.before
  · cases ht
    exact h.rest.span (Mark.class_of_isInner (by decide))

theorem run (h : s.OnlyRaw least) (steps : Nat) : (s.run steps).OnlyRaw least := by
  induction steps generalizing s with
  | zero => exact h
  | succ steps ih =>
    unfold Scan.run
    split
    · exact h
    · split
      · exact h
      · next text htext =>
        have hbehind :
            (if text = [] then s else (s.readData text).advance text.length).OnlyRaw least := by
          split
          · exact h
          · exact (h.readData (h.plainText? htext)).advance _
        dsimp only
        generalize (if text = [] then s else (s.readData text).advance text.length) = s at hbehind
        split
        · exact hbehind
        -- A bracket and an ampersand are read by what follows them.
        · split
          · exact hbehind
          · exact ih ((hbehind.readBracket steps).advance _)
        · split
          · next turn ht => exact ih ((hbehind.readReference_turn ht).advance _)
          · next t ht => exact hbehind.readReference_stop ht

theorem renew (h : s.OnlyRaw least) : s.renew.OnlyRaw least :=
  ⟨h.rest, h.rest.suffix (List.drop_suffix _ _), h.held, h.pieces, h.stash⟩

theorem finish (h : s.OnlyRaw least) : s.finish.OnlyRaw least := by
  have hread :
      (if s.rest = [] then s else (s.readData s.rest).advance s.rest.length).OnlyRaw least := by
    split
    · exact h
    · exact (h.readData h.rest).advance _
  unfold Scan.finish
  dsimp only
  generalize (if s.rest = [] then s else (s.readData s.rest).advance s.rest.length) = s at hread
  split
  · exact hread
  · exact ⟨hread.rest, hread.known, .nil,
      List.forall_mem_cons.mpr ⟨.raw hread.stash.counted, hread.pieces⟩, hread.stash.store hread.held⟩

end OnlyRaw

end Scan

/-- Blocks of markup stored leave marks of stored markup in the source, and in the markup. -/
theorem onlyRaw_store {stash : Stash} (hs : stash.OnlyRaw least) {source : Text}
    (h : Mark.OnlyRaw least source) :
    Mark.OnlyRaw least (store stash source).1 ∧ (store stash source).2.OnlyRaw least := by
  have hfinal := ((((Scan.onlyRaw_start hs h).run (Scan.stepsFor source)).renew).run
    (Scan.stepsFor source)).finish
  exact ⟨.flatten fun piece hp => hfinal.pieces piece (List.mem_reverse.mp hp), hfinal.stash⟩

end Raw

end Changelog
