import Changelog.Error
import Changelog.Proofs.Anchors.Unreadable
import Changelog.Proofs.Decoration.Order

/-!
# Where decoration breaks off

A heading of the second level whose text cannot be read ends the walk.  What is decorated then are the
elements before it in document order; the heading itself has its class, and what comes after it, its
own inside included, is as it was.  `decorate_breaksOff` says so, and for which headings this happens.
-/

namespace Changelog

open Text

namespace Element

variable {stash : Stash} {done : Address → Bool}

/-! ### A class set before the others are decorated -/

theorem innerTextAll_modify {f : Tree → Tree} (es : List Tree) (i : Nat)
    (hf : ∀ e ∈ es[i]?, (f e).innerText = e.innerText ∧ (f e).tail = e.tail) :
    innerTextAll (es.modify i f) = innerTextAll es := by
  induction es generalizing i with
  | nil => rw [List.modify_nil]
  | cons e es ih =>
    cases i with
    | zero =>
      obtain ⟨htext, htail⟩ := hf e rfl
      rw [List.modify_zero_cons, innerTextAll, innerTextAll, htext, htail]
    | succ i => rw [List.modify_succ_cons, innerTextAll, innerTextAll, ih i hf]

theorem innerText_withClass (classes : String) (e : Tree) :
    (e.withClass classes).innerText = e.innerText := by
  cases e with
  | mk tag attrs text tail children => simp only [withClass, set, innerText]

theorem innerText_update_withClass (classes : String) (e : Tree) (a : Address) :
    (e.update (withClass classes) a).innerText = e.innerText ∧
      (e.update (withClass classes) a).tail = e.tail := by
  induction a generalizing e with
  | nil => exact ⟨innerText_withClass classes e, rfl⟩
  | cons i a ih =>
    obtain ⟨tag, attrs, text, tail, children⟩ := e
    refine ⟨?_, rfl⟩
    rw [update_cons, innerText, innerText, innerTextAll_modify children i fun c _ => ih c]

/-- A child can be changed before or after all children are decorated. -/
theorem dressedAtAll_modify {f g : Tree → Tree} {es : List Tree} {i : Nat} {c : Tree}
    (hc : es[i]? = some c) (h : g (dressedAt stash (fun b => done (i :: b)) c) =
      dressedAt stash (fun b => done (i :: b)) (f c)) :
    (dressedAtAll stash done 0 es).modify i g = dressedAtAll stash done 0 (es.modify i f) := by
  apply List.ext_getElem?
  intro j
  rw [List.getElem?_modify, getElem?_dressedAtAll, getElem?_dressedAtAll, List.getElem?_modify,
    Nat.zero_add]
  by_cases hj : i = j
  · subst hj
    rw [hc]
    simpa using h
  · simp [hj]

/-- It makes no difference whether an element gets a class before or after others are decorated. -/
theorem dressedAt_update (classes : String) {tree x : Tree} {a : Address}
    (hx : tree.at? a = some x) (ha : done a = false) :
    (dressedAt stash done tree).update (withClass classes) (placeAt done tree a) =
      dressedAt stash done (tree.update (withClass classes) a) := by
  induction a generalizing tree done with
  | nil =>
    have hclass : (tree.withClass classes).children = tree.children := rfl
    rw [placeAt, ha, if_neg (fun h => Bool.false_ne_true h.1), update_nil, update_nil,
      dressedAt_of_not tree ha, dressedAt_of_not _ ha, hclass]
    rfl
  | cons i a ih =>
    rw [at?_cons] at hx
    obtain ⟨c, hc, hcx⟩ := Option.bind_eq_some_iff.mp hx
    have hchild := @ih (fun b => done (i :: b)) c hcx ha
    have htext := (innerText_update_withClass classes tree (i :: a)).1
    have hinside := @dressedAtAll_modify stash done (·.update (withClass classes) a)
      (·.update (withClass classes) (placeAt (fun b => done (i :: b)) c a)) _ i c hc hchild
    obtain ⟨tag, attrs, text, tail, children⟩ := tree
    dsimp only at hc hinside
    rw [update_cons] at htext ⊢
    -- The element above keeps its anchor, which is made of its text.
    have hmarked := @marked_with_children stash ⟨tag, attrs, text, tail, children⟩
      (children.modify i fun e => e.update (withClass classes) a) (by
        rw [Anchor.textOf, Anchor.textOf, htext])
    rw [placeAt, dressedAt, dressedAt]
    dsimp only at hmarked ⊢
    rw [hc, hmarked, ← hinside]
    by_cases hd : done [] = true
    · by_cases h2 : tag = "h2"
      · simp only [hd, h2, and_self, if_true, List.cons_append, List.nil_append, update_cons,
          boxed, List.modify_zero_cons]
      · simp only [hd, h2, and_false, if_true, if_false, List.nil_append, update_cons]
    · simp only [hd, Bool.false_eq_true, false_and, if_false, List.nil_append, update_cons]

theorem placeAt_update (classes : String) (tree : Tree) (a b : Address) :
    placeAt done (tree.update (withClass classes) a) b = placeAt done tree b := by
  induction b generalizing tree done a with
  | nil =>
    cases a with
    | nil => rfl
    | cons i a => rfl
  | cons j b ih =>
    cases a with
    | nil => rfl
    | cons i a =>
      rw [update_cons, placeAt, placeAt]
      dsimp only
      rw [List.getElem?_modify]
      by_cases hj : i = j
      · subst hj
        cases tree.children[i]? with
        | none => rfl
        | some c => simp [ih]
      · simp [hj]

/-! ### The walk up to a heading that cannot be read -/

theorem decorateAll_unreadable {tree x : Tree} {a : Address} {boxes later : List Address}
    {cause : NumberError} (hroot : tree.tag ∉ headingTags) (hx : tree.at? a = some x)
    (ha : done a = false) (h2 : x.tag = "h2") (htext : Anchor.textOf stash x = .error cause)
    (hplace : ∀ b, Address.afterBoxes boxes b = placeAt done tree b) :
    decorateAll stash (dressedAt stash done tree) boxes (a :: later) =
      (dressedAt stash done (tree.update (withClass (HeadingLook.ofLevel 2).classes) a),
        some (.text cause)) := by
  have hfound := @at?_dressedAt stash done tree x a hx ha
  have hown : done (a ++ []) = false := by rwa [List.append_nil]
  have htag : (dressedAt stash (fun b => done (a ++ b)) x).tag = "h2" := by
    rw [dressedAt_of_not x hown]
    exact h2
  have hcause : Anchor.textOf stash (dressedAt stash (fun b => done (a ++ b)) x) =
      .error cause := by
    rw [Anchor.textOf, (innerText_dressedAt stash x _).1]
    exact htext
  have hnoheading : placeAt done tree a = [] → headingTags.contains
      (dressedAt stash (fun b => done (a ++ b)) x).tag = false := by
    intro hnil
    cases a with
    | nil =>
      cases hx
      rw [h2] at hroot
      exact absurd (by decide) hroot
    | cons i a => exact absurd hnil (placeAt_ne_nil tree i a)
  have hrestyled : restyled stash (dressedAt stash (fun b => done (a ++ b)) x) =
      ((dressedAt stash (fun b => done (a ++ b)) x).withClass (HeadingLook.ofLevel 2).classes,
        some (.text cause)) := by
    have hheading : headingTags.contains "h2" = true := by decide
    have hlevel : headingLevel "h2" = .ok 2 := by rfl
    have hanchored : (HeadingLook.ofLevel 2).anchored = true := rfl
    simp only [restyled, htag, hheading, if_true, hlevel, hcause]
    exact if_pos hanchored
  rw [decorateAll_cons stash _ _ boxes later a _ (hplace a) hfound hnoheading, hrestyled,
    ← dressedAt_update _ hx ha]
  dsimp only
  rw [update_withClass _ _ _ _ hfound]

theorem pairwise_addresses (tree : Tree) : tree.addresses.Pairwise fun a b => ¬b <+: a :=
  pairwise_addressesFrom [] tree

theorem not_contains_below {before later : List Address} {a : Address} {tree : Tree}
    (h : tree.addresses = before ++ later) (ha : a ∈ later) (b : Address) :
    before.contains (a ++ b) = false := by
  have hpairs := List.pairwise_append.mp (h ▸ pairwise_addresses tree)
  rw [← Bool.not_eq_true, List.contains_iff_mem]
  exact fun hmem => hpairs.2.2 (a ++ b) hmem a ha (List.prefix_append a b)

/-- The walk ends at the first heading of the second level whose text cannot be read. -/
theorem decorate_unreadable {tree x : Tree} {before later : List Address} {a : Address}
    {cause : NumberError} (hroot : tree.tag ∉ headingTags)
    (haddresses : tree.addresses = before ++ a :: later) (hx : tree.at? a = some x)
    (h2 : x.tag = "h2") (htext : Anchor.textOf stash x = .error cause)
    (hbefore : ∀ b ∈ before, ∀ h, tree.at? b = some h → h.tag = "h2" →
      ∃ text, Anchor.textOf stash h = .ok text) :
    decorate stash tree =
      (dressedAt stash before.contains
        (tree.update (withClass (HeadingLook.ofLevel 2).classes) a), some (.text cause)) := by
  have hnothing (b : Address) : (fun _ : Address => false) b = false := rfl
  have hstart (b : Address) : Address.afterBoxes [] b = placeAt (fun _ => false) tree b :=
    (placeAt_nothing tree b hnothing).symm
  have hnodup : (before ++ a :: later).Nodup := haddresses ▸ nodup_addressesFrom [] tree
  have hnew : ∀ b ∈ before, (fun _ : Address => false) b = false ∧ ∃ e, tree.at? b = some e ∧
      (e.tag = "h2" → ∃ text, Anchor.textOf stash e = .ok text) := by
    intro b hb
    have hmem : b ∈ tree.addresses := haddresses ▸ List.mem_append_left _ hb
    obtain ⟨e, he⟩ := exists_at?_of_perm (List.Perm.refl _) b hmem
    exact ⟨rfl, e, he, hbefore b hb e he⟩
  obtain ⟨hturn, hplace⟩ := @decorateAll_readable stash _ tree hroot before (a :: later) []
    (List.nodup_append.mp hnodup).1 hnew hstart
  have ha : before.contains a = false := by
    have hbelow := not_contains_below haddresses List.mem_cons_self []
    rwa [List.append_nil] at hbelow
  rw [dressedAt_nothing stash tree _ hnothing] at hturn
  rw [decorate, haddresses, hturn]
  exact decorateAll_unreadable hroot hx ha h2 htext hplace

/-- What the walk leaves alone when it ends: the elements behind the heading are found as they were,
and the heading has its class and stands where it stood. -/
theorem at?_dressedAt_later {tree x : Tree} {before later : List Address} {a : Address}
    (classes : String) (haddresses : tree.addresses = before ++ a :: later)
    (hx : tree.at? a = some x) :
    (dressedAt stash before.contains (tree.update (withClass classes) a)).at?
        (placeAt before.contains tree a) = some (x.withClass classes) ∧
      (∀ p i, a = p ++ [i] →
        placeAt before.contains tree a = placeAt before.contains tree p ++ [i]) ∧
      ∀ b ∈ later, (dressedAt stash before.contains (tree.update (withClass classes) a)).at?
        (placeAt before.contains tree b) = tree.at? b := by
  have hbelow {b : Address} (hb : b ∈ a :: later) (c : Address) :=
    not_contains_below haddresses hb c
  have hown {b : Address} (hb : b ∈ a :: later) : before.contains b = false := by
    have h := hbelow hb []
    rwa [List.append_nil] at h
  have hfound {b : Address} {e : Tree} (hb : b ∈ a :: later)
      (he : (tree.update (withClass classes) a).at? b = some e) :
      (dressedAt stash before.contains (tree.update (withClass classes) a)).at?
        (placeAt before.contains tree b) = some e := by
    rw [← placeAt_update classes tree a b, at?_dressedAt he (hown hb)]
    exact congrArg some (dressedAt_nothing stash e _ (hbelow hb))
  refine ⟨hfound List.mem_cons_self ?_, ?_, fun b hb => ?_⟩
  · rw [at?_update, hx]
    rfl
  · rintro p i rfl
    exact placeAt_child hx (hown List.mem_cons_self)
  · have hmem : b ∈ a :: later := List.mem_cons_of_mem a hb
    obtain ⟨e, he⟩ := exists_at?_of_perm (List.Perm.refl _) b
      (haddresses ▸ List.mem_append_right before hmem)
    have hpairs := List.pairwise_append.mp (haddresses ▸ pairwise_addresses tree)
    have hafter : ¬b <+: a := (List.pairwise_cons.mp hpairs.2.1).1 b hb
    rw [he]
    have hkept (e : Tree) : (e.withClass classes).children = e.children := rfl
    exact hfound hmem ((at?_update_apart hkept tree hafter).trans he)

/-! ### Which failure it is -/

theorem decorate_rootHeading (stash : Stash) {tree : Tree} (hroot : tree.tag ∈ headingTags) :
    decorate stash tree = (tree, some .rootHeading) := by
  have hheading : headingTags.contains tree.tag = true := by simpa using hroot
  cases tree with
  | mk tag attrs text tail children =>
    simp only [decorate, addresses, addressesFrom, decorateAll, Address.afterBoxes,
      List.foldl_nil, decorateAt, at?_nil, hheading, if_true]

/-- The walk fails when the root is a heading, or when the text of a heading of the second level
cannot be read. -/
theorem decorate_error_iff (stash : Stash) (tree : Tree) :
    (decorate stash tree).2 ≠ none ↔ tree.tag ∈ headingTags ∨
      ∃ a h cause, tree.at? a = some h ∧ h.tag = "h2" ∧ Anchor.textOf stash h = .error cause := by
  by_cases hroot : tree.tag ∈ headingTags
  · rw [decorate_rootHeading stash hroot]
    exact ⟨fun _ => Or.inl hroot, fun _ he => nomatch he⟩
  · constructor
    · intro hfails
      obtain ⟨err, herr⟩ := Option.ne_none_iff_exists'.mp hfails
      rw [decorate_eq_decorateTree stash tree (by simpa using hroot)] at herr
      obtain ⟨a, h, cause, hat, h2, hcause, -⟩ := decorateTree_error stash tree herr
      exact Or.inr ⟨a, h, cause, hat, h2, hcause⟩
    · rintro (hheading | ⟨a, h, cause, hat, h2, hcause⟩)
      · exact absurd hheading hroot
      · -- The first of these headings in document order is where the walk breaks off.
        let unreadable (a : Address) : Prop := ∃ h cause, tree.at? a = some h ∧ h.tag = "h2" ∧
          Anchor.textOf stash h = .error cause
        classical
        have hsome : (tree.addresses.find? fun a => decide (unreadable a)).isSome := by
          rw [List.find?_isSome]
          exact ⟨a, mem_addressesFrom [] hat, decide_eq_true ⟨h, cause, hat, h2, hcause⟩⟩
        obtain ⟨first, hfirst⟩ := Option.isSome_iff_exists.mp hsome
        obtain ⟨hunreadable, before, later, haddresses, hnone⟩ :=
          List.find?_eq_some_iff_append.mp hfirst
        obtain ⟨x, cause', hx, hx2, hcause'⟩ := of_decide_eq_true hunreadable
        have hbefore : ∀ b ∈ before, ∀ h, tree.at? b = some h → h.tag = "h2" →
            ∃ text, Anchor.textOf stash h = .ok text := by
          intro b hb h hat h2
          cases htext : Anchor.textOf stash h with
          | ok text => exact ⟨text, rfl⟩
          | error e =>
            have hnot := hnone b hb
            rw [Bool.not_eq_true', decide_eq_false_iff_not] at hnot
            exact absurd ⟨h, e, hat, h2, htext⟩ hnot
        rw [decorate_unreadable hroot haddresses hx hx2 hcause' hbefore]
        exact fun he => nomatch he

/-- Whether an element is a heading of the second level with an escape beyond the last code point in
its text, once stored markup is put in. -/
def HoldsBeyond (stash : Stash) (e : Tree) : Prop :=
  e.tag = "h2" ∧ ∃ resolved, Anchor.resolveRaw stash e.innerText = .ok resolved ∧
    Mark.HoldsBeyond resolved

theorem textOf_error_iff {e : Tree} (h : Anchor.WithinLimit stash e.innerText) (h2 : e.tag = "h2") :
    (∃ cause, Anchor.textOf stash e = .error cause) ↔ HoldsBeyond stash e := by
  constructor
  · rintro ⟨cause, hcause⟩
    obtain ⟨resolved, digits, hraw, ⟨front, hat, hbeyond, -⟩, -⟩ :=
      (Anchor.visible_error_iff h).mp hcause
    exact ⟨h2, resolved, hraw, front, digits, hat, hbeyond⟩
  · rintro ⟨-, resolved, hraw, hholds⟩
    obtain ⟨digits, hfirst⟩ := hholds.first
    exact ⟨_, (Anchor.visible_error_iff h).mpr ⟨resolved, digits, hraw, hfirst, rfl⟩⟩

theorem textOf_ok_of_not {e : Tree} (h : Anchor.WithinLimit stash e.innerText) (h2 : e.tag = "h2")
    (hnot : ¬HoldsBeyond stash e) : ∃ text, Anchor.textOf stash e = .ok text := by
  cases htext : Anchor.textOf stash e with
  | ok text => exact ⟨text, rfl⟩
  | error cause => exact absurd ((textOf_error_iff h h2).mp ⟨cause, htext⟩) hnot

theorem kind_beyondError (n : Nat) :
    (DecorateError.text (Mark.beyondError n)).kind =
      if 2147483647 < n then "OverflowError" else "ValueError" := by
  unfold Mark.beyondError
  split
  · rfl
  · rfl

/-- As long as no number in a heading of the second level has too many digits, the walk fails exactly
when the root is a heading, and then nothing changes, or when an escape in such a heading is beyond
the last code point.  The first heading that holds one ends the walk, with the failure of its leftmost
one: all elements before it are decorated, it has its class and neither an anchor nor a box, and all
that comes after it is untouched. -/
theorem decorate_breaksOff (stash : Stash) (tree : Tree)
    (hlimit : ∀ a h, tree.at? a = some h → h.tag = "h2" →
      Anchor.WithinLimit stash h.innerText) :
    ((decorate stash tree).2 ≠ none ↔
        tree.tag ∈ headingTags ∨ ∃ a h, tree.at? a = some h ∧ HoldsBeyond stash h) ∧
      (tree.tag ∈ headingTags → decorate stash tree = (tree, some .rootHeading)) ∧
      ∀ before a later x resolved digits, tree.tag ∉ headingTags →
        tree.addresses = before ++ a :: later → tree.at? a = some x → x.tag = "h2" →
        Anchor.resolveRaw stash x.innerText = .ok resolved → Mark.FirstBeyond resolved digits →
        (∀ b ∈ before, ∀ h, tree.at? b = some h → ¬HoldsBeyond stash h) →
        decorate stash tree =
            (dressedAt stash before.contains
              (tree.update (withClass (HeadingLook.ofLevel 2).classes) a),
              some (.text (Mark.beyondError (digitsValue digits)))) ∧
          (DecorateError.text (Mark.beyondError (digitsValue digits))).kind =
            (if 2147483647 < digitsValue digits then "OverflowError" else "ValueError") ∧
          (decorate stash tree).1.at? (placeAt before.contains tree a) =
            some (x.withClass (HeadingLook.ofLevel 2).classes) ∧
          (∀ p i, a = p ++ [i] →
            placeAt before.contains tree a = placeAt before.contains tree p ++ [i]) ∧
          ∀ b ∈ later, (decorate stash tree).1.at? (placeAt before.contains tree b) =
            tree.at? b := by
  refine ⟨?_, decorate_rootHeading stash, ?_⟩
  · rw [decorate_error_iff]
    refine or_congr_right ⟨?_, ?_⟩
    · rintro ⟨a, h, cause, hat, h2, hcause⟩
      exact ⟨a, h, hat, (textOf_error_iff (hlimit a h hat h2) h2).mp ⟨cause, hcause⟩⟩
    · rintro ⟨a, h, hat, hholds⟩
      have h2 : h.tag = "h2" := hholds.1
      obtain ⟨cause, hcause⟩ := (textOf_error_iff (hlimit a h hat h2) h2).mpr hholds
      exact ⟨a, h, cause, hat, h2, hcause⟩
  · intro before a later x resolved digits hroot haddresses hx h2 hraw hfirst hbefore
    have htext : Anchor.textOf stash x =
        .error (Mark.beyondError (digitsValue digits)) :=
      (Anchor.visible_error_iff (hlimit a x hx h2)).mpr ⟨resolved, digits, hraw, hfirst, rfl⟩
    have hwalk := decorate_unreadable hroot haddresses hx h2 htext fun b hb h hat hh2 =>
      textOf_ok_of_not (hlimit b h hat hh2) hh2 (hbefore b hb h hat)
    obtain ⟨hown, hplace, hlater⟩ :=
      @at?_dressedAt_later stash tree x before later a (HeadingLook.ofLevel 2).classes haddresses hx
    rw [hwalk]
    exact ⟨rfl, kind_beyondError _, hown, hplace, hlater⟩

/-- Markup with an escape beyond the last code point. -/
def beyondStash : Stash :=
  Stash.ofList ["<b>".toList ++ Mark.escaped 1114112]

/-- A heading that can be read, one that shows the markup and holds another one, and a list. -/
def beyondHeadings : Tree :=
  ⟨"div", [], none, none,
    [⟨"h2", [], some "A".toList, some "t".toList, []⟩,
      ⟨"h2", [], some ("B".toList ++ Mark.raw 0), none,
        [⟨"h2", [], some (Mark.escaped 9999999999), some "c".toList, []⟩]⟩,
      ⟨"ul", [], none, none, []⟩]⟩

theorem withinLimit_of_short {stash : Stash} {cs : Text} (resolved : Text)
    (h : cs.length ≤ digitLimit) (hraw : Anchor.resolveRaw stash cs = .ok resolved)
    (hlen : resolved.length ≤ digitLimit)
    (hshown : ∀ shown, Mark.unescape resolved = .ok shown → shown.length ≤ digitLimit) :
    Anchor.WithinLimit stash cs := by
  refine Anchor.withinLimit_of_runs (runsWithin_of_length h) ?_ ?_
  · intro resolved' hraw'
    obtain rfl := Except.ok.inj (hraw.symm.trans hraw')
    exact runsWithin_of_length hlen
  · intro shown hok
    rw [hraw] at hok
    exact runsWithin_of_length (hshown shown hok)

theorem withinLimit_beyondHeadings (a : Address) (h : Tree) (hat : beyondHeadings.at? a = some h)
    (h2 : h.tag = "h2") : Anchor.WithinLimit beyondStash h.innerText := by
  have hfails {cs : Text} {e : NumberError} (he : Mark.unescape cs = .error e) (shown : Text)
      (hok : Mark.unescape cs = .ok shown) : shown.length ≤ digitLimit :=
    nomatch he.symm.trans hok
  have hmem : a ∈ [[], [0], [1], [1, 0], [2]] := mem_addressesFrom [] hat
  simp only [List.mem_cons, List.not_mem_nil, or_false] at hmem
  rcases hmem with rfl | rfl | rfl | rfl | rfl
  · cases hat
    exact absurd h2 (by decide)
  · cases hat
    have hshown : Mark.unescape "A".toList = .ok "A".toList := by rfl
    refine withinLimit_of_short "A".toList (by decide) (by rfl) (by decide) fun shown hok => ?_
    obtain rfl := Except.ok.inj (hok.symm.trans hshown)
    decide
  · cases hat
    exact withinLimit_of_short
      ("B".toList ++ Mark.escaped 1114112 ++ Mark.escaped 9999999999 ++ "c".toList) (by decide)
      (by rfl) (by decide) (hfails (e := .notCodePoint) (by rfl))
  · cases hat
    exact withinLimit_of_short (Mark.escaped 9999999999) (by decide) (by rfl) (by decide)
      (hfails (e := .tooLarge) (by rfl))
  · cases hat
    exact absurd h2 (by decide)

/-- The second heading ends the walk with the escape from the markup, and the one inside it keeps no
class. -/
theorem decorate_breaksOff_beyondHeadings :
    (∀ a h, beyondHeadings.at? a = some h → h.tag = "h2" →
      Anchor.WithinLimit beyondStash h.innerText) ∧
    decorate beyondStash beyondHeadings =
      (⟨"div", [], none, none,
        [⟨"div", [("class", "mb-8".toList)], none, some "t".toList,
          [⟨"h2", [("class", (HeadingLook.ofLevel 2).classes.toList), ("id", "a".toList)],
            some "A".toList, none, []⟩]⟩,
        ⟨"h2", [("class", (HeadingLook.ofLevel 2).classes.toList)],
          some ("B".toList ++ Mark.raw 0), none,
          [⟨"h2", [], some (Mark.escaped 9999999999), some "c".toList, []⟩]⟩,
        ⟨"ul", [], none, none, []⟩]⟩, some (.text .notCodePoint)) := by
  have hlimit := withinLimit_beyondHeadings
  have hfirst : Mark.FirstBeyond
      ("B".toList ++ Mark.escaped 1114112 ++ Mark.escaped 9999999999 ++ "c".toList)
      "1114112".toList := by
    have hdigits : ∀ d ∈ "1114112".toList, isDigit d = true := List.all_eq_true.mp (by rfl)
    refine ⟨"B".toList, ⟨by decide, hdigits, Mark.escaped 9999999999 ++ "c".toList, by rfl⟩,
      by decide, fun front digits hat _ => ?_⟩
    cases front with
    | nil => exact absurd (List.cons_prefix_cons.mp hat.place).1 (by decide)
    | cons c front => exact Nat.succ_le_succ (Nat.zero_le _)
  have hbefore : ∀ b ∈ [[], [0]], ∀ h, beyondHeadings.at? b = some h →
      ¬HoldsBeyond beyondStash h := by
    simp only [List.mem_cons, List.not_mem_nil, or_false]
    rintro b (rfl | rfl) h hat ⟨h2, resolved, hraw, hholds⟩
    · cases hat
      exact absurd h2 (by decide)
    · cases hat
      have hplain : Anchor.resolveRaw beyondStash "A".toList = .ok "A".toList := by rfl
      obtain rfl := Except.ok.inj (hplain.symm.trans hraw)
      exact absurd hholds.opening_mem (by decide)
  have hwalk := (decorate_breaksOff beyondStash beyondHeadings hlimit).2.2 [[], [0]] [1]
    [[1, 0], [2]] _ _ _ (by decide) (by rfl) rfl rfl (by rfl) hfirst hbefore
  exact ⟨hlimit, hwalk.1.trans (by rfl)⟩

/-! ### Digits that come together -/

/-- The start of a reference, digits that are escaped one by one, and its end. -/
def escapedReference (count : Nat) : Text :=
  "&#".toList ++ ((List.replicate count (Mark.escaped '1'.toNat)).flatten ++ [';'])

theorem runsWithin_escapedReference (count : Nat) : RunsWithin 2 (escapedReference count) := by
  have hescaped : Mark.escaped '1'.toNat = [Mark.opening, '4', '9', Mark.closing] := by rfl
  have hnothing : RunsWithin 2 [] := runsWithin_of_length (Nat.zero_le 2)
  have hdigits : RunsWithin 2 ['4', '9'] := runsWithin_of_length (Nat.le_refl 2)
  refine hnothing.cut (by decide) (hnothing.cut (by decide) ?_)
  induction count with
  | zero => exact runsWithin_of_length (by decide)
  | succ count ih =>
    rw [List.replicate_succ, List.flatten_cons, hescaped]
    exact hnothing.cut (by decide) (hdigits.cut (by decide) ih)

theorem resolveRaw_escapedReference (stash : Stash) (count : Nat) :
    Anchor.resolveRaw stash (escapedReference count) = .ok (escapedReference count) := by
  have hinner : Anchor.resolveRaw stash
      ((List.replicate count (Mark.escaped '1'.toNat)).flatten ++ [';']) =
      .ok ((List.replicate count (Mark.escaped '1'.toNat)).flatten ++ [';']) := by
    induction count with
    | zero => rfl
    | succ count ih =>
      rw [List.replicate_succ, List.flatten_cons, List.append_assoc, Token.resolveRaw_escaped, ih]
      rfl
  rw [escapedReference,
    Token.resolveRaw_append _ _ (Mark.onlyAmpersands_of_not_mem (by decide)), hinner]
  rfl

theorem unescape_escapedReference (count : Nat) :
    Mark.unescape (escapedReference count) =
      .ok ('&' :: '#' :: (List.replicate count '1' ++ [';'])) := by
  have hinner : Mark.unescape
      ((List.replicate count (Mark.escaped '1'.toNat)).flatten ++ [';']) =
      .ok (List.replicate count '1' ++ [';']) := by
    induction count with
    | zero => rfl
    | succ count ih =>
      rw [List.replicate_succ, List.flatten_cons, List.append_assoc, Mark.unescape_escaped, ih]
      rfl
  rw [escapedReference, Mark.unescape_append _ _ (Mark.onlyAmpersands_of_not_mem (by decide)),
    hinner]
  rfl

/-- The digits come together in a number that cannot be read when there are too many of them. -/
theorem visible_escapedReference (stash : Stash) {count : Nat} (h : digitLimit < count) :
    Anchor.visible stash (escapedReference count) = .error (.tooManyDigits count) := by
  have hsome : List.replicate count '1' ≠ [] := by
    intro hnil
    rw [List.replicate_eq_nil_iff] at hnil
    omega
  have hdigits : ∀ c ∈ List.replicate count '1', isAsciiDigit c = true := by
    intro c hc
    rw [List.eq_of_mem_replicate hc]
    decide
  have hread : readDecimal (List.replicate count '1') = .error (.tooManyDigits count) := by
    rw [readDecimal, List.length_replicate, if_neg (Nat.not_le_of_lt h)]
  rw [Anchor.visible, resolveRaw_escapedReference]
  show (Mark.unescape (escapedReference count)).bind Entity.decode = _
  rw [unescape_escapedReference]
  show Entity.decode ('&' :: '#' :: (List.replicate count '1' ++ [';'])) = _
  rw [Entity.decode_number _ [] hsome hdigits, hread]
  rfl

/-- A heading that is such a reference. -/
def escapedHeading (count : Nat) : Tree :=
  ⟨"div", [], none, none, [⟨"h2", [], some (escapedReference count), none, []⟩]⟩

theorem runsWithin_escapedHeading (count : Nat) : RunsWithin 2 (escapedHeading count).innerText := by
  have htext : (escapedHeading count).innerText = escapedReference count := by
    simp only [escapedHeading, innerText, innerTextAll, Option.getD_none, Option.getD_some,
      List.nil_append, List.append_nil]
  rw [htext]
  exact runsWithin_escapedReference count

theorem not_holdsBeyond_escapedHeading (stash : Stash) (count : Nat) (a : Address) (h : Tree)
    (hat : (escapedHeading count).at? a = some h) : ¬HoldsBeyond stash h := by
  have hinner : ¬HoldsBeyond stash ⟨"h2", [], some (escapedReference count), none, []⟩ := by
    rintro ⟨-, resolved, hraw, front, digits, hplace, hbeyond⟩
    rw [innerText, innerTextAll, List.append_nil, Option.getD_some,
      resolveRaw_escapedReference] at hraw
    obtain rfl := Except.ok.inj hraw
    -- An escape of two digits is far from the last code point.
    have hlen := runsWithin_escapedReference count digits hplace.digits_infix hplace.digit
    have hvalue := digitsValue_lt_hundred hlen
    rw [Mark.lastCodePoint] at hbeyond
    omega
  have hroot : ¬HoldsBeyond stash (escapedHeading count) := fun h =>
    absurd (show "div" = "h2" from h.1) (by decide)
  refine forall_at? (fun h => ¬HoldsBeyond stash h) hroot (fun c hc => ?_) a h hat
  obtain rfl := List.mem_singleton.mp hc
  exact forall_at? _ hinner fun d hd => nomatch hd

theorem decorate_escapedHeading (stash : Stash) {count : Nat} (h : digitLimit < count) :
    (decorate stash (escapedHeading count)).2 = some (.text (.tooManyDigits count)) := by
  have htext : Anchor.textOf stash ⟨"h2", [], some (escapedReference count), none, []⟩ =
      .error (.tooManyDigits count) := by
    rw [Anchor.textOf, innerText, innerTextAll, List.append_nil, Option.getD_some]
    exact visible_escapedReference stash h
  have hbefore : ∀ b ∈ [[]], ∀ x, (escapedHeading count).at? b = some x → x.tag = "h2" →
      ∃ text, Anchor.textOf stash x = .ok text := by
    intro b hb x hx h2
    obtain rfl := List.mem_singleton.mp hb
    cases hx
    exact absurd (show "div" = "h2" from h2) (by decide)
  have hroot : (escapedHeading count).tag ∉ headingTags := by
    show "div" ∉ headingTags
    decide
  rw [decorate_unreadable (a := [0]) hroot rfl rfl rfl htext hbefore]

/-- No run of digits is long there, no escape is beyond the last code point, and yet the walk breaks
off. -/
theorem decorate_longEscapedHeading :
    RunsWithin digitLimit (escapedHeading 4301).innerText ∧
      (escapedHeading 4301).tag ∉ headingTags ∧
      (∀ a h, (escapedHeading 4301).at? a = some h → ¬HoldsBeyond Stash.empty h) ∧
      (decorate Stash.empty (escapedHeading 4301)).2 = some (.text (.tooManyDigits 4301)) := by
  refine ⟨(runsWithin_escapedHeading 4301).mono (by decide), ?_,
    not_holdsBeyond_escapedHeading Stash.empty 4301, decorate_escapedHeading Stash.empty (by decide)⟩
  show "div" ∉ headingTags
  decide

end Element

end Changelog
