import Changelog.Text.Number

/-!
# Replacement from the left

A recogniser that reads at least one character is replaced step by step: what it reads gives way to
a value, and every other character stays.
-/

namespace Changelog.Text

variable {ε : Type}

/-- A recogniser of nonempty parts. -/
def Reads {α : Type} (recognise : Text → Option (α × Text)) : Prop :=
  ∀ cs value rest, recognise cs = some (value, rest) → rest.length < cs.length

theorem replaceWithin_eq {recognise : Text → Option (Text × Text)} (h : Reads recognise)
    (fuel : Nat) (cs : Text) (hf : cs.length ≤ fuel) :
    replaceWithin recognise fuel cs = replaceAll recognise cs := by
  unfold replaceAll
  -- More fuel than characters makes no difference, by induction on the longer of the two.
  induction fuel using Nat.strongRecOn generalizing cs with
  | ind fuel ih =>
    cases cs with
    | nil =>
      cases fuel with
      | zero => rfl
      | succ fuel => rfl
    | cons c cs =>
      cases fuel with
      | zero => cases hf
      | succ fuel =>
        have hcs : cs.length ≤ fuel := Nat.le_of_succ_le_succ hf
        rw [List.length_cons, replaceWithin, replaceWithin]
        cases hr : recognise (c :: cs) with
        | none =>
          show c :: replaceWithin recognise fuel cs = c :: replaceWithin recognise cs.length cs
          rw [ih fuel (Nat.lt_succ_self fuel) cs hcs]
        | some r =>
          have hrest : r.2.length ≤ cs.length :=
            Nat.le_of_lt_succ (h (c :: cs) r.1 r.2 hr)
          show r.1 ++ replaceWithin recognise fuel r.2 =
            r.1 ++ replaceWithin recognise cs.length r.2
          rw [ih fuel (Nat.lt_succ_self fuel) r.2 (Nat.le_trans hrest hcs),
            ih cs.length (Nat.lt_succ_of_le hcs) r.2 hrest]

theorem replaceAll_keep {recognise : Text → Option (Text × Text)} (c : Char) (cs : Text)
    (hc : recognise (c :: cs) = none) :
    replaceAll recognise (c :: cs) = c :: replaceAll recognise cs := by
  rw [replaceAll, List.length_cons, replaceWithin, hc]
  rfl

theorem replaceAll_read {recognise : Text → Option (Text × Text)} (h : Reads recognise)
    {cs value rest : Text} (hc : recognise cs = some (value, rest)) :
    replaceAll recognise cs = value ++ replaceAll recognise rest := by
  have hlt := h cs value rest hc
  cases cs with
  | nil => cases hlt
  | cons c cs =>
    rw [replaceAll, List.length_cons, replaceWithin, hc]
    show value ++ replaceWithin recognise cs.length rest = value ++ replaceAll recognise rest
    rw [replaceWithin_eq h cs.length rest (Nat.le_of_lt_succ hlt)]

/-- A front part in which nothing is recognised stays. -/
theorem replaceAll_append {recognise : Text → Option (Text × Text)} (front rest : Text)
    (h : ∀ c cs, (∃ before, front = before ++ c :: cs) → recognise (c :: (cs ++ rest)) = none) :
    replaceAll recognise (front ++ rest) = front ++ replaceAll recognise rest := by
  induction front with
  | nil => rfl
  | cons c front ih =>
    rw [List.cons_append, replaceAll_keep c (front ++ rest) (h c front ⟨[], rfl⟩),
      ih fun d ds ⟨before, hb⟩ => h d ds ⟨c :: before, by rw [hb, List.cons_append]⟩,
      List.cons_append]

/-- A text in which nothing is recognised stays. -/
theorem replaceAll_none {recognise : Text → Option (Text × Text)} (cs : Text)
    (h : ∀ c ds, (∃ before, cs = before ++ c :: ds) → recognise (c :: ds) = none) :
    replaceAll recognise cs = cs := by
  have happend := replaceAll_append cs [] fun c ds hb => by
    rw [List.append_nil]
    exact h c ds hb
  rw [List.append_nil] at happend
  rw [happend]
  exact List.append_nil cs

theorem replaceWithin?_eq {recognise : Text → Option (Except ε Text × Text)}
    (h : Reads recognise) (fuel : Nat) (cs : Text) (hf : cs.length ≤ fuel) :
    replaceWithin? recognise fuel cs = replaceAll? recognise cs := by
  unfold replaceAll?
  induction fuel using Nat.strongRecOn generalizing cs with
  | ind fuel ih =>
    cases cs with
    | nil =>
      cases fuel with
      | zero => rfl
      | succ fuel => rfl
    | cons c cs =>
      cases fuel with
      | zero => cases hf
      | succ fuel =>
        have hcs : cs.length ≤ fuel := Nat.le_of_succ_le_succ hf
        rw [List.length_cons, replaceWithin?, replaceWithin?]
        cases hr : recognise (c :: cs) with
        | none =>
          show (replaceWithin? recognise fuel cs).map (c :: ·) =
            (replaceWithin? recognise cs.length cs).map (c :: ·)
          rw [ih fuel (Nat.lt_succ_self fuel) cs hcs]
        | some r =>
          obtain ⟨value, rest⟩ := r
          have hrest : rest.length ≤ cs.length := Nat.le_of_lt_succ (h (c :: cs) value rest hr)
          cases value with
          | error e => rfl
          | ok value =>
            show (replaceWithin? recognise fuel rest).map (value ++ ·) =
              (replaceWithin? recognise cs.length rest).map (value ++ ·)
            rw [ih fuel (Nat.lt_succ_self fuel) rest (Nat.le_trans hrest hcs),
              ih cs.length (Nat.lt_succ_of_le hcs) rest hrest]

theorem replaceAll?_keep {recognise : Text → Option (Except ε Text × Text)} (c : Char)
    (cs : Text) (hc : recognise (c :: cs) = none) :
    replaceAll? recognise (c :: cs) = (replaceAll? recognise cs).map (c :: ·) := by
  rw [replaceAll?, List.length_cons, replaceWithin?, hc]
  rfl

theorem replaceAll?_read {recognise : Text → Option (Except ε Text × Text)} (h : Reads recognise)
    {cs rest : Text} {value : Except ε Text} (hc : recognise cs = some (value, rest)) :
    replaceAll? recognise cs =
      value.bind fun v => (replaceAll? recognise rest).map (v ++ ·) := by
  have hlt := h cs value rest hc
  cases cs with
  | nil => cases hlt
  | cons c cs =>
    rw [replaceAll?, List.length_cons, replaceWithin?, hc]
    cases value with
    | error e => rfl
    | ok v =>
      show (replaceWithin? recognise cs.length rest).map (v ++ ·) =
        (replaceAll? recognise rest).map (v ++ ·)
      rw [replaceWithin?_eq h cs.length rest (Nat.le_of_lt_succ hlt)]

theorem replaceAll?_append {recognise : Text → Option (Except ε Text × Text)} (front rest : Text)
    (h : ∀ c cs, (∃ before, front = before ++ c :: cs) → recognise (c :: (cs ++ rest)) = none) :
    replaceAll? recognise (front ++ rest) = (replaceAll? recognise rest).map (front ++ ·) := by
  induction front with
  | nil =>
    rw [List.nil_append]
    cases replaceAll? recognise rest with
    | error e => rfl
    | ok v => rfl
  | cons c front ih =>
    rw [List.cons_append, replaceAll?_keep c (front ++ rest) (h c front ⟨[], rfl⟩),
      ih fun d ds ⟨before, hb⟩ => h d ds ⟨c :: before, by rw [hb, List.cons_append]⟩]
    cases replaceAll? recognise rest with
    | error e => rfl
    | ok v => rfl

theorem map_ok {α β : Type} {x : Except ε α} {f : α → β} {b : β} (h : x.map f = .ok b) :
    ∃ a, x = .ok a ∧ f a = b := by
  cases x with
  | error e => cases h
  | ok a => exact ⟨a, rfl, Except.ok.inj h⟩

theorem map_error {α β : Type} {x : Except ε α} {f : α → β} {e : ε} (h : x.map f = .error e) :
    x = .error e := by
  cases x with
  | error e' =>
    cases h
    rfl
  | ok a => cases h

/-- A replacement fails where a part is recognised that has no value. -/
theorem replaceAll?_error {recognise : Text → Option (Except ε Text × Text)}
    (h : Reads recognise)
    (hs : ∀ cs value rest, recognise cs = some (value, rest) → rest <:+ cs) {cs : Text} {e : ε}
    (he : replaceAll? recognise cs = .error e) :
    ∃ part rest, part <:+ cs ∧ recognise part = some (.error e, rest) := by
  induction hn : cs.length using Nat.strongRecOn generalizing cs with
  | ind n ih =>
    cases cs with
    | nil => cases he
    | cons c cs =>
      cases hc : recognise (c :: cs) with
      | none =>
        rw [replaceAll?_keep c cs hc] at he
        obtain ⟨part, rest, hpart, hread⟩ :=
          ih cs.length (hn ▸ Nat.lt_succ_self _) (map_error he) rfl
        exact ⟨part, rest, hpart.trans (List.suffix_cons c cs), hread⟩
      | some r =>
        obtain ⟨value, behind⟩ := r
        rw [replaceAll?_read h hc] at he
        cases value with
        | error e' =>
          cases he
          exact ⟨c :: cs, behind, List.suffix_refl _, hc⟩
        | ok v =>
          obtain ⟨part, rest, hpart, hread⟩ :=
            ih behind.length (hn ▸ h _ _ _ hc) (map_error he) rfl
          exact ⟨part, rest, hpart.trans (hs _ _ _ hc), hread⟩

/-- The same for a recogniser that reads the text of which the value is made. -/
theorem replaceAll?_error_of_read {read : Text → Option (Text × Text)}
    {value : Text → Except ε Text}
    (hs : ∀ cs inside rest, read cs = some (inside, rest) →
      rest <:+ cs ∧ rest.length < cs.length) {cs : Text} {e : ε}
    (he : replaceAll? (fun t => (read t).map fun r => (value r.1, r.2)) cs = .error e) :
    ∃ part inside rest, part <:+ cs ∧ read part = some (inside, rest) ∧ value inside = .error e := by
  have hread {part rest : Text} {v : Except ε Text}
      (hr : (read part).map (fun r => (value r.1, r.2)) = some (v, rest)) :
      ∃ inside, read part = some (inside, rest) ∧ value inside = v := by
    obtain ⟨⟨inside, left⟩, hmark, heq⟩ := Option.map_eq_some_iff.mp hr
    obtain ⟨hvalue, rfl⟩ := Prod.mk.inj heq
    exact ⟨inside, hmark, hvalue⟩
  have hreads : Reads fun t => (read t).map fun r => (value r.1, r.2) := by
    intro part v rest hr
    obtain ⟨inside, hmark, -⟩ := hread hr
    exact (hs part inside rest hmark).2
  have hsuffix (part : Text) (v : Except ε Text) (rest : Text)
      (hr : (read part).map (fun r => (value r.1, r.2)) = some (v, rest)) : rest <:+ part := by
    obtain ⟨inside, hmark, -⟩ := hread hr
    exact (hs part inside rest hmark).1
  obtain ⟨part, rest, hpart, hr⟩ := replaceAll?_error hreads hsuffix he
  obtain ⟨inside, hmark, hvalue⟩ := hread hr
  exact ⟨part, inside, rest, hpart, hmark, hvalue⟩

/-! ### Parts replaced -/

theorem reads_part {part value : Text} (h : part ≠ []) :
    Reads fun t => (after? part t).map fun rest => (value, rest) := by
  intro cs v rest hr
  obtain ⟨left, hleft, heq⟩ := Option.map_eq_some_iff.mp hr
  cases heq
  rw [after?_eq_some_iff] at hleft
  have hpos := List.length_pos_iff.mpr h
  rw [hleft, List.length_append]
  omega

theorem replaceText_part (part value rest : Text) (h : part ≠ []) :
    replaceText part value (part ++ rest) = value ++ replaceText part value rest := by
  apply replaceAll_read (reads_part h)
  rw [(after?_eq_some_iff part _ rest).mpr rfl]
  rfl

/-- A front part in which the first character of `part` does not occur stays. -/
theorem replaceText_append (first : Char) (others value front rest : Text) (h : first ∉ front) :
    replaceText (first :: others) value (front ++ rest) =
      front ++ replaceText (first :: others) value rest := by
  apply replaceAll_append
  intro c cs ⟨before, hb⟩
  have hc : first ≠ c := by
    intro hc
    rw [hb, ← hc] at h
    exact h (List.mem_append_right _ List.mem_cons_self)
  rw [after?, if_neg hc]
  rfl

/-- Whether no end of `lead` is continued by a text. -/
def Apart (lead rest : Text) : Prop :=
  ∀ v, v <:+ lead → v ≠ [] → after? v rest = none

theorem apart_of_not_mem {lead : Text} {c : Char} (rest : Text) (h : c ∉ lead) :
    Apart lead (c :: rest) := by
  intro v hv hne
  obtain ⟨l, ls, rfl⟩ := List.exists_cons_of_ne_nil hne
  have hl : l ≠ c := fun hl => h (hl ▸ hv.subset List.mem_cons_self)
  rw [after?, if_neg hl]

theorem apart_cons {l : Char} {lead rest : Text} (hown : after? (l :: lead) rest = none)
    (h : Apart lead rest) : Apart (l :: lead) rest := by
  intro v hv hne
  rcases List.suffix_cons_iff.mp hv with rfl | hv
  · exact hown
  · exact h v hv hne

theorem after?_append {lead rest : Text} (h : Apart lead rest) (cs : Text) :
    after? lead (cs ++ rest) = (after? lead cs).map (· ++ rest) := by
  induction lead generalizing cs with
  | nil => rfl
  | cons l lead ih =>
    cases cs with
    | nil => exact h _ (List.suffix_refl _) (List.cons_ne_nil l lead)
    | cons c cs =>
      have hinner := ih (fun v hv => h v (hv.trans (List.suffix_cons l lead))) cs
      rw [List.cons_append, after?, after?]
      split
      · exact hinner
      · rfl

/-- A place over which nothing is recognised separates what stands on its two sides. -/
theorem replaceAll_split {recognise : Text → Option (Text × Text)} (hr : Reads recognise)
    (rest : Text) (h : ∀ cs, cs ≠ [] →
      recognise (cs ++ rest) = (recognise cs).map fun r => (r.1, r.2 ++ rest)) (front : Text) :
    replaceAll recognise (front ++ rest) =
      replaceAll recognise front ++ replaceAll recognise rest := by
  induction hn : front.length using Nat.strongRecOn generalizing front with
  | ind n ih =>
    cases front with
    | nil => rfl
    | cons c front =>
      have hsplit := h (c :: front) (List.cons_ne_nil c front)
      cases hc : recognise (c :: front) with
      | none =>
        rw [hc] at hsplit
        have hlt : front.length < n := by
          rw [← hn, List.length_cons]
          exact Nat.lt_succ_self _
        have hkeep := replaceAll_keep c (front ++ rest) hsplit
        rw [replaceAll_keep c front hc, List.cons_append, hkeep, ih front.length hlt front rfl,
          List.cons_append]
      | some r =>
        obtain ⟨value, left⟩ := r
        rw [hc] at hsplit
        have hlt : left.length < n := hn ▸ hr _ _ _ hc
        rw [replaceAll_read hr hc, replaceAll_read hr hsplit, ih left.length hlt left rfl,
          List.append_assoc]

theorem replaceAll?_split {recognise : Text → Option (Except ε Text × Text)}
    (hr : Reads recognise) (rest : Text) (h : ∀ cs, cs ≠ [] →
      recognise (cs ++ rest) = (recognise cs).map fun r => (r.1, r.2 ++ rest)) (front : Text) :
    replaceAll? recognise (front ++ rest) =
      (replaceAll? recognise front).bind fun v => (replaceAll? recognise rest).map (v ++ ·) := by
  induction hn : front.length using Nat.strongRecOn generalizing front with
  | ind n ih =>
    cases front with
    | nil =>
      show replaceAll? recognise rest = (replaceAll? recognise rest).map ([] ++ ·)
      cases replaceAll? recognise rest with
      | error e => rfl
      | ok v => rfl
    | cons c front =>
      have hsplit := h (c :: front) (List.cons_ne_nil c front)
      cases hc : recognise (c :: front) with
      | none =>
        rw [hc] at hsplit
        have hlt : front.length < n := by
          rw [← hn, List.length_cons]
          exact Nat.lt_succ_self _
        have hkeep := replaceAll?_keep c (front ++ rest) hsplit
        rw [replaceAll?_keep c front hc, List.cons_append, hkeep, ih front.length hlt front rfl]
        cases replaceAll? recognise front with
        | error e => rfl
        | ok v =>
          cases replaceAll? recognise rest with
          | error e => rfl
          | ok w => rfl
      | some r =>
        obtain ⟨value, left⟩ := r
        rw [hc] at hsplit
        have hlt : left.length < n := hn ▸ hr _ _ _ hc
        rw [replaceAll?_read hr hc, replaceAll?_read hr hsplit, ih left.length hlt left rfl]
        cases value with
        | error e => rfl
        | ok v =>
          cases replaceAll? recognise left with
          | error e => rfl
          | ok w =>
            cases replaceAll? recognise rest with
            | error e => rfl
            | ok x => exact congrArg Except.ok (List.append_assoc v w x).symm

/-- A character that `part` does not hold separates what stands on its two sides. -/
theorem replaceText_cons (part value : Text) (c : Char) (rest : Text) (h : part ≠ [])
    (hc : c ∉ part) (front : Text) :
    replaceText part value (front ++ c :: rest) =
      replaceText part value front ++ c :: replaceText part value rest := by
  have hkeep : replaceText part value (c :: rest) = c :: replaceText part value rest := by
    apply replaceAll_keep
    rw [apart_of_not_mem rest hc part (List.suffix_refl part) h]
    rfl
  rw [← hkeep]
  apply replaceAll_split (reads_part h)
  intro cs hcs
  rw [after?_append (apart_of_not_mem rest hc) cs, Option.map_map, Option.map_map]
  rfl

theorem not_mem_replaceText {part value : Text} {c : Char} (h : part ≠ []) (hv : c ∉ value)
    (cs : Text) (hc : c ∉ cs) : c ∉ replaceText part value cs := by
  induction hn : cs.length using Nat.strongRecOn generalizing cs with
  | ind n ih =>
    cases hr : after? part cs with
    | some left =>
      rw [after?_eq_some_iff] at hr
      have hpos := List.length_pos_iff.mpr h
      rw [hr, replaceText_part _ _ _ h, List.mem_append, not_or]
      rw [hr, List.mem_append, not_or] at hc
      refine ⟨hv, ih left.length ?_ left hc.2 rfl⟩
      rw [← hn, hr, List.length_append]
      omega
    | none =>
      cases cs with
      | nil => exact List.not_mem_nil
      | cons d ds =>
        rw [List.mem_cons, not_or] at hc
        have hkeep : replaceText part value (d :: ds) = d :: replaceText part value ds := by
          apply replaceAll_keep
          rw [hr]
          rfl
        rw [hkeep, List.mem_cons, not_or]
        refine ⟨hc.1, ih ds.length ?_ ds hc.2 rfl⟩
        rw [← hn]
        exact Nat.lt_succ_self _

/-! ### Recognisers that agree on a text -/

theorem replaceAll_congr {recognise recognise' : Text → Option (Text × Text)}
    (hs : ∀ part value rest, recognise part = some (value, rest) → rest <:+ part) {cs : Text}
    (h : ∀ part, part <:+ cs → recognise part = recognise' part) :
    replaceAll recognise cs = replaceAll recognise' cs := by
  unfold replaceAll
  generalize cs.length = fuel
  induction fuel generalizing cs with
  | zero => rfl
  | succ fuel ih =>
    cases cs with
    | nil => rfl
    | cons c cs =>
      have hhead := h (c :: cs) (List.suffix_refl _)
      unfold replaceWithin
      rw [← hhead]
      cases hr : recognise (c :: cs) with
      | none => exact congrArg (c :: ·) (ih fun part hp => h part (hp.trans (List.suffix_cons c cs)))
      | some r => exact congrArg (r.1 ++ ·) (ih fun part hp => h part (hp.trans (hs _ _ _ hr)))

theorem replaceAll?_congr {recognise recognise' : Text → Option (Except ε Text × Text)}
    (hs : ∀ part value rest, recognise part = some (value, rest) → rest <:+ part) {cs : Text}
    (h : ∀ part, part <:+ cs → recognise part = recognise' part) :
    replaceAll? recognise cs = replaceAll? recognise' cs := by
  unfold replaceAll?
  generalize cs.length = fuel
  induction fuel generalizing cs with
  | zero => rfl
  | succ fuel ih =>
    cases cs with
    | nil => rfl
    | cons c cs =>
      have hhead := h (c :: cs) (List.suffix_refl _)
      unfold replaceWithin?
      rw [← hhead]
      cases hr : recognise (c :: cs) with
      | none =>
        exact congrArg (Except.map (c :: ·))
          (ih fun part hp => h part (hp.trans (List.suffix_cons c cs)))
      | some r =>
        obtain ⟨value, rest⟩ := r
        cases value with
        | error e => rfl
        | ok value =>
          exact congrArg (Except.map (value ++ ·))
            (ih fun part hp => h part (hp.trans (hs _ _ _ hr)))

/-! ### Numbers -/

theorem digitsValue_concat (digits : List Char) (c : Char) :
    digitsValue (digits ++ [c]) = 10 * digitsValue digits + (digitValue? c).getD 0 := by
  rw [digitsValue, List.foldl_append]
  rfl

theorem digitValue?_digitChar (d : Nat) (h : d < 10) :
    digitValue? (Nat.digitChar d) = some d := by
  revert d
  decide

/-- The digits of a number write the number. -/
theorem digitsValue_decimal (n : Nat) : digitsValue (decimal n) = n := by
  unfold decimal
  induction n using Nat.strongRecOn with
  | ind n ih =>
    rw [Nat.toDigits_eq_if (by decide)]
    split
    · next hlt =>
      show digitsValue ([] ++ [Nat.digitChar n]) = n
      rw [digitsValue_concat, digitValue?_digitChar n hlt]
      exact Nat.zero_add n
    · next hge =>
      have hmod : n % 10 < 10 := Nat.mod_lt n (by decide)
      rw [digitsValue_concat, ih (n / 10) (by omega), digitValue?_digitChar _ hmod]
      show 10 * (n / 10) + n % 10 = n
      omega

theorem isAsciiDigit_of_mem_decimal {n : Nat} {c : Char} (h : c ∈ decimal n) :
    isAsciiDigit c = true := by
  have hd : c.isDigit = true := Nat.isDigit_of_mem_toDigits (by decide) (by decide) h
  unfold Char.isDigit at hd
  unfold isAsciiDigit
  rw [Bool.and_eq_true, decide_eq_true_eq, decide_eq_true_eq] at hd
  rw [Bool.and_eq_true, decide_eq_true_eq, decide_eq_true_eq]
  exact hd

end Changelog.Text
