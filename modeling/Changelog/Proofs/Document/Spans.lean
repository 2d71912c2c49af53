import Changelog.Proofs.Document.Emphasis
import Changelog.Proofs.Document.Links

/-!
# Running text is read soundly

Reading running text turns it into elements: the texts of a document are read one after the other,
what is read lies on the shelf, and marks are resolved into what lies there.
-/

namespace Changelog

open Element Text

variable {g : Grade}

namespace Span

/-! ### Searches -/

theorem searchWithin_spec {read : Reader}
    (hr : ∀ before cs rest, read before cs = some (.pass rest) → rest <:+ cs) (fuel : Nat)
    (before cs : Text) (hit : Hit) (h : searchWithin read fuel before cs = some hit) :
    ∃ front, before.reverse ++ cs = hit.before.reverse ++ front ∧
      read hit.before front = some (.replace hit.value hit.rest) := by
  induction fuel generalizing before cs with
  | zero => cases h
  | succ fuel ih =>
    cases cs with
    | nil => cases h
    | cons c cs =>
      unfold searchWithin at h
      split at h
      · next value rest hread =>
        cases h
        exact ⟨c :: cs, rfl, hread⟩
      · next rest hread =>
        obtain ⟨passed, hpassed⟩ := hr _ _ _ hread
        obtain ⟨front, hfront, hmade⟩ := ih _ _ h
        refine ⟨front, ?_, hmade⟩
        rw [← hfront, ← hpassed, List.length_append, Nat.add_sub_cancel, List.take_left,
          List.reverse_append, List.reverse_reverse, List.append_assoc]
      · obtain ⟨front, hfront, hmade⟩ := ih _ _ h
        refine ⟨front, ?_, hmade⟩
        rw [← hfront, List.reverse_cons, List.append_assoc, List.singleton_append]

/-- A search cuts its text outside marks, and what it finds is sound. -/
theorem sound_search {read : Reader} (hr : Reads g read) {cs : Text} (hc : g.running cs)
    {hit : Hit} (h : search read cs = some hit) :
    g.running hit.before.reverse ∧ hit.value.Sound g ∧ g.running hit.rest := by
  obtain ⟨front, hcs, hmade⟩ :=
    searchWithin_spec (fun _ _ _ hp => (hr _ _ _ hp).2) cs.length [] cs hit h
  rw [List.reverse_nil, List.nil_append] at hcs
  rw [hcs] at hc
  obtain ⟨⟨c, more, rfl, houter⟩, hrest, hvalue⟩ := hr _ _ _ hmade
  have hfront : g.running (c :: more) := g.suffix hc (List.suffix_append _ _)
  exact ⟨Grade.cutBefore hc houter, hvalue hfront, g.suffix hfront hrest⟩

/-! ### Texts that are read -/

/-- A text of the grade with a sound shelf. -/
def ReadSound (g : Grade) (r : Text × Shelf) : Prop :=
  g.running r.1 ∧ r.2.Sound g

/-- A way of reading texts that keeps them sound. -/
def ReadText.Keeps (g : Grade) (read : ReadText) : Prop :=
  ∀ turn cs shelf, g.running cs → Shelf.Sound g shelf → ReadSound g (read turn cs shelf)

theorem sound_readPiece {read : Text → Shelf → Text × Shelf}
    (hr : ∀ cs shelf, g.running cs → Shelf.Sound g shelf → ReadSound g (read cs shelf))
    {piece : Option Piece} (hp : g.running (Draft.charsOf piece)) {shelf : Shelf}
    (h : shelf.Sound g) :
    g.running (Draft.charsOf (readPiece read piece shelf).1) ∧
      (readPiece read piece shelf).2.Sound g := by
  unfold readPiece
  split
  · exact ⟨hp, h⟩
  · split
    · exact ⟨hp, h⟩
    · exact hr _ shelf hp h

theorem sound_readChildren {read : ReadText} (hr : read.Keeps g) (turn : Nat) {ds : List Draft}
    (hd : ∀ d ∈ ds, Element.Sound g d) {shelf : Shelf} (h : shelf.Sound g) :
    (∀ d ∈ (readChildren read turn ds shelf).1, Element.Sound g d) ∧
      (readChildren read turn ds shelf).2.Sound g := by
  induction ds generalizing shelf with
  | nil => exact ⟨List.forall_mem_nil _, h⟩
  | cons d ds ih =>
    obtain ⟨hfirst, hothers⟩ := List.forall_mem_cons.mp hd
    obtain ⟨htext, hshelf⟩ := sound_readPiece (hr (turn + 1)) hfirst.inside.text h
    obtain ⟨htail, hshelf'⟩ := sound_readPiece (hr turn) hfirst.tail hshelf
    obtain ⟨hrest, hfinal⟩ := ih hothers hshelf'
    exact ⟨List.forall_mem_cons.mpr ⟨(hfirst.withText htext).withTail htail, hrest⟩, hfinal⟩

theorem sound_readSpan {read : ReadText} (hr : read.Keeps g) (turn : Nat) {d : Draft}
    (hd : Element.Sound g d) {shelf : Shelf} (h : shelf.Sound g) :
    Element.Sound g (readSpan read turn d shelf).1 ∧ (readSpan read turn d shelf).2.Sound g := by
  unfold readSpan
  split
  · exact ⟨hd, h⟩
  · obtain ⟨htext, hshelf⟩ := sound_readPiece (hr (turn + 1)) hd.inside.text h
    obtain ⟨hchildren, hfinal⟩ := sound_readChildren hr turn hd.inside.children hshelf
    exact ⟨(hd.withText htext).withChildren hchildren, hfinal⟩

theorem sound_shelve {read : ReadText} (hr : read.Keeps g) (turn : Nat) {value : Value}
    (hv : value.Sound g) {shelf : Shelf} (h : shelf.Sound g) :
    ReadSound g (shelve read turn value shelf) := by
  unfold shelve
  split
  · next d =>
    obtain ⟨hd, hshelf⟩ := sound_readSpan hr turn hv h
    exact ⟨Grade.spanMark _, hshelf.put (.element _) hd⟩
  · next chars => exact ⟨Grade.spanMark _, h.put (.text chars) hv⟩
  · next chars =>
    exact ⟨Grade.spanMark _, (h.store hv).put (.text _) (g.raw h.stash.counted)⟩

/-- Every text is read soundly. -/
theorem keeps_readWithin {references : References} (hrefs : References.Sound g references)
    (fuel : Nat) : ReadText.Keeps g (readWithin references fuel) := by
  induction fuel with
  | zero => exact fun turn cs shelf hc h => ⟨hc, h⟩
  | succ fuel ih =>
    intro turn cs shelf hc h
    unfold readWithin
    split
    · exact Emphasis.sound_read hc h
    · next read hread =>
      have hreads := reads_readers hrefs h read (List.mem_of_getElem? hread)
      split
      · exact ih _ _ shelf hc h
      · next hit hhit =>
        obtain ⟨hbefore, hvalue, hrest⟩ := sound_search hreads hc hhit
        obtain ⟨hmark, hshelf⟩ := sound_shelve ih turn hvalue h
        exact ih _ _ _ (g.append (g.append hbefore hmark) hrest) hshelf

theorem sound_readText {references : References} (hrefs : References.Sound g references)
    {cs : Text} (hc : g.running cs) {shelf : Shelf} (h : shelf.Sound g) :
    ReadSound g (readText references cs shelf) :=
  keeps_readWithin hrefs _ 0 cs shelf hc h

/-! ### Marks that are resolved -/

/-- What is resolved so far is sound. -/
structure Resolved.Sound (g : Grade) (r : Resolved) : Prop where
  lead : g.running (Draft.charsOf r.lead)
  elements : ∀ d ∈ r.elements, Element.Sound g d

theorem running_joinPiece {old : Option Piece} (ho : g.running (Draft.charsOf old)) {new : Piece}
    (hn : g.running new.chars) : g.running (Draft.charsOf (joinPiece old new)) := by
  unfold joinPiece
  split
  · exact ho
  · split
    · split
      · exact hn
      · exact g.append ho hn
    · exact hn

namespace Resolved.Sound

variable {r : Resolved}

theorem empty : Resolved.Sound g ⟨none, []⟩ :=
  ⟨Grade.empty, List.forall_mem_nil _⟩

theorem addText (h : r.Sound g) {new : Piece} (hn : g.running new.chars) :
    (r.addText new).Sound g := by
  unfold Resolved.addText
  split
  · exact ⟨running_joinPiece h.lead hn, h.elements⟩
  · next last others hr =>
    have hall : ∀ d ∈ last :: others, Element.Sound g d := by
      rw [← hr]
      exact fun d hd => h.elements d (List.mem_reverse.mp hd)
    obtain ⟨hlast, hothers⟩ := List.forall_mem_cons.mp hall
    refine ⟨h.lead, fun d hd => ?_⟩
    rcases List.mem_cons.mp (List.mem_reverse.mp hd) with hd | hd
    · rw [hd]
      exact hlast.withTail (running_joinPiece hlast.tail hn)
    · exact hothers d hd

theorem addElement (h : r.Sound g) {d : Draft} (hd : Element.Sound g d) :
    (r.addElement d).Sound g :=
  ⟨h.lead, List.forall_mem_append.mpr ⟨h.elements, List.forall_mem_singleton.mpr hd⟩⟩

end Resolved.Sound

/-- An element with the marks in its own text resolved. -/
def resolveOwn (resolve : Piece → Resolved) (e : Draft) : Draft :=
  match e.text with
  | some p =>
    if isFilled e.text then
      { e with text := (resolve p).lead, children := (resolve p).elements ++ e.children }
    else e
  | none => e

/-- An element with the marks in its tail resolved, and the elements found there behind it. -/
def resolveTail (resolve : Piece → Resolved) (e : Draft) : List Draft :=
  match e.tail with
  | some p =>
    if isFilled e.tail then { e with tail := (resolve p).lead } :: (resolve p).elements else [e]
  | none => [e]

theorem resolveElement_eq (resolve : Piece → Resolved) (d : Draft) :
    resolveElement resolve d = resolveOwn resolve { d with
      children := d.children.flatMap fun child => resolveTail resolve (resolveOwn resolve child) } :=
  rfl

section

variable {resolve : Piece → Resolved}

theorem sound_resolveOwn (hr : ∀ p, g.running p.chars → (resolve p).Sound g) {e : Draft}
    (he : Element.Sound g e) : Element.Sound g (resolveOwn resolve e) := by
  unfold resolveOwn
  split
  · next p hp =>
    split
    · have htext := he.inside.text
      rw [hp] at htext
      have hresolved := hr p htext
      exact (he.withText hresolved.lead).withChildren
        (List.forall_mem_append.mpr ⟨hresolved.elements, he.inside.children⟩)
    · exact he
  · exact he

theorem sound_resolveTail (hr : ∀ p, g.running p.chars → (resolve p).Sound g) {e : Draft}
    (he : Element.Sound g e) : ∀ e' ∈ resolveTail resolve e, Element.Sound g e' := by
  unfold resolveTail
  split
  · next p hp =>
    split
    · have htail := he.tail
      rw [hp] at htail
      have hresolved := hr p htail
      exact List.forall_mem_cons.mpr ⟨he.withTail hresolved.lead, hresolved.elements⟩
    · exact List.forall_mem_singleton.mpr he
  · exact List.forall_mem_singleton.mpr he

theorem sound_resolveElement (hr : ∀ p, g.running p.chars → (resolve p).Sound g) {d : Draft}
    (hd : Element.Sound g d) : Element.Sound g (resolveElement resolve d) := by
  rw [resolveElement_eq]
  refine sound_resolveOwn hr (hd.withChildren ?_)
  intro child hchild
  obtain ⟨old, hold, hin⟩ := List.mem_flatMap.mp hchild
  exact sound_resolveTail hr (sound_resolveOwn hr (hd.inside.children old hold)) child hin

end

theorem sound_resolveWithin {shelf : Shelf} (h : shelf.Sound g) (fuel : Nat) (verbatim : Bool)
    {r : Resolved} (hr : r.Sound g) {cs : Text} (hc : g.running cs) :
    (resolveWithin shelf fuel verbatim r cs).Sound g := by
  induction fuel generalizing verbatim r cs with
  | zero => exact hr.addText hc
  | succ fuel ih =>
    unfold resolveWithin
    split
    · exact hr.addText hc
    · next before after hs =>
      have hafter : g.running after := g.suffix hc (splitFirst?_suffix hs)
      have hbefore : g.running before := by
        rw [splitFirst?_eq _ _ _ _ hs, List.append_assoc, List.cons_append] at hc
        exact Grade.cutBefore hc (by decide)
      have hrest {digits rest : Text}
          (hm : Mark.readDigits? isAsciiDigit after = some (digits, rest)) : g.running rest := by
        refine g.suffix hafter ⟨digits ++ [Mark.closing], ?_⟩
        rw [(Mark.readDigits?_eq hm).1, List.append_assoc, List.singleton_append]
      dsimp only
      split
      · next d rest hfound =>
        obtain ⟨m, hm, hspan⟩ := Option.bind_eq_some_iff.mp hfound
        obtain ⟨span, hfind, heq⟩ := Option.map_eq_some_iff.mp hspan
        cases heq
        have hd : Element.Sound g d := h.find hfind
        refine ih _ ((hr.addText hbefore).addElement (sound_resolveElement ?_ hd)) (hrest hm)
        exact fun p hp => ih _ Resolved.Sound.empty hp
      · next chars rest hfound =>
        obtain ⟨m, hm, hspan⟩ := Option.bind_eq_some_iff.mp hfound
        obtain ⟨span, hfind, heq⟩ := Option.map_eq_some_iff.mp hspan
        cases heq
        have hchars : g.running chars := h.find hfind
        exact ih _ ((hr.addText hbefore).addText hchars) (hrest hm)
      · exact ih _ (hr.addText (g.append hbefore Grade.spanLead)) hafter

theorem sound_resolvePiece {shelf : Shelf} (h : shelf.Sound g) {piece : Piece}
    (hp : g.running piece.chars) : (resolvePiece shelf piece).Sound g :=
  sound_resolveWithin h _ _ Resolved.Sound.empty hp

/-! ### The whole document -/

/-- A scanned child is sound, with the elements found in its text. -/
def Scanned.Sound (g : Grade) (s : Scanned) : Prop :=
  Element.Sound g s.element ∧ ∀ d ∈ s.found, Element.Sound g d

theorem sound_scanChildren {references : References} (hrefs : References.Sound g references)
    (fuel : Nat) (ds : List (Draft × Bool)) (shelf : Shelf)
    (hd : ∀ d ∈ ds, Element.Sound g d.1) (h : shelf.Sound g) :
    (∀ s ∈ (scanChildren references fuel ds shelf).1, s.Sound g) ∧
      (scanChildren references fuel ds shelf).2.Sound g := by
  induction fuel generalizing ds shelf with
  | zero =>
    refine ⟨?_, h⟩
    intro s hs
    obtain ⟨d, hmem, rfl⟩ := List.mem_map.mp hs
    exact ⟨hd d hmem, List.forall_mem_nil _⟩
  | succ fuel ih =>
    cases ds with
    | nil => exact ⟨List.forall_mem_nil _, h⟩
    | cons first ds =>
      obtain ⟨d, again⟩ := first
      obtain ⟨hfirst, hothers⟩ := List.forall_mem_cons.mp hd
      unfold scanChildren
      split
      next child found shelf' hown =>
      -- The text of the child.
      have hchild : Element.Sound g child ∧ (∀ e ∈ found, Element.Sound g e) ∧
          shelf'.Sound g := by
        split at hown
        · next p hp =>
          split at hown
          · cases hown
            exact ⟨hfirst, List.forall_mem_nil _, h⟩
          · have htext := hfirst.inside.text
            rw [hp] at htext
            obtain ⟨hchars, hread⟩ : ReadSound g (readText references p.chars shelf) :=
              sound_readText hrefs htext h
            have hresolved : (resolvePiece (readText references p.chars shelf).2
                (.running (readText references p.chars shelf).1)).Sound g :=
              sound_resolvePiece hread hchars
            cases hown
            exact ⟨hfirst.withText hresolved.lead, hresolved.elements, hread⟩
        · cases hown
          exact ⟨hfirst, List.forall_mem_nil _, h⟩
      split
      next child' later shelf'' htail =>
      -- The text behind it, whose elements are scanned in their turn.
      have hlater : Element.Sound g child' ∧ (∀ e ∈ later, Element.Sound g e) ∧
          shelf''.Sound g := by
        obtain ⟨hc, -, hs⟩ := hchild
        split at htail
        · next p hp =>
          split at htail
          · cases htail
            exact ⟨hc, List.forall_mem_nil _, hs⟩
          · have hchars := hc.tail
            rw [hp] at hchars
            obtain ⟨hpiece, hread⟩ := sound_readPiece
              (fun cs shelf hc h => sound_readText hrefs hc h) hchars hs
            generalize readPiece (readText references) (some p) shelf' = read at *
            have hshown : g.running (read.1.getD p).chars := by
              cases hr : read.1 with
              | none => exact hchars
              | some q =>
                rw [hr] at hpiece
                exact hpiece
            have hresolved := sound_resolvePiece hread hshown
            cases htail
            exact ⟨hc.withTail hresolved.lead, hresolved.elements, hread⟩
        · cases htail
          exact ⟨hc, List.forall_mem_nil _, hs⟩
      have hnext : ∀ e ∈ later.map (fun e => (e, false)) ++ ds, Element.Sound g e.1 := by
        refine List.forall_mem_append.mpr ⟨?_, hothers⟩
        intro e he
        obtain ⟨e', he', rfl⟩ := List.mem_map.mp he
        exact hlater.2.1 e' he'
      obtain ⟨hrest, hshelf⟩ := ih _ shelf'' hnext hlater.2.2
      exact ⟨List.forall_mem_cons.mpr ⟨⟨hlater.1, hchild.2.1⟩, hrest⟩, hshelf⟩

/-- A visit of every element of a list keeps what each single visit keeps. -/
theorem visitReverse_all {α β : Type} {visit : α → Shelf → β × Shelf} {p : α → Prop}
    {q : β → Prop} {as : List α} {shelf : Shelf}
    (hv : ∀ a shelf, p a → Shelf.Sound g shelf → q (visit a shelf).1 ∧ (visit a shelf).2.Sound g)
    (h : (∀ a ∈ as, p a) ∧ shelf.Sound g) :
    (∀ b ∈ (visitReverse visit as shelf).1, q b) ∧ (visitReverse visit as shelf).2.Sound g := by
  obtain ⟨ha, hs⟩ := h
  induction as with
  | nil => exact ⟨List.forall_mem_nil _, hs⟩
  | cons a as ih =>
    obtain ⟨hfirst, hothers⟩ := List.forall_mem_cons.mp ha
    obtain ⟨hrest, hshelf⟩ := ih hothers
    obtain ⟨hb, hshelf'⟩ := hv a _ hfirst hshelf
    exact ⟨List.forall_mem_cons.mpr ⟨hb, hrest⟩, hshelf'⟩

theorem sound_tagged {ds : List Draft} (sign : Bool) (h : ∀ d ∈ ds, Element.Sound g d) :
    ∀ e ∈ ds.map (fun d => (d, sign)), Element.Sound g e.1 := by
  intro e he
  obtain ⟨d, hd, rfl⟩ := List.mem_map.mp he
  exact h d hd

/-- An element with its children read to the bottom. -/
def visit (references : References) (fuel : Nat) (d : Draft) (shelf : Shelf) : Draft × Shelf :=
  let r := visitChildren references fuel (d.children.map fun e => (e, false)) shelf
  ({ d with children := r.1 }, r.2)

/-- A scanned child with the elements found in its text, or with all its children, visited. -/
def visitScanned (references : References) (fuel : Nat) (s : Scanned) (shelf : Shelf) :
    (Draft × Bool) × Shelf :=
  if s.element.children.isEmpty then
    let r := visitReverse (visit references fuel) s.found shelf
    (({ s.element with children := r.1 }, s.again), r.2)
  else
    let r := visitChildren references fuel
      (s.found.map (fun e => (e, true)) ++ s.element.children.map fun e => (e, false)) shelf
    (({ s.element with children := r.1 }, s.again), r.2)

/-- An element with a sign visited once more. -/
def visitAgain (references : References) (fuel : Nat) (d : Draft × Bool) (shelf : Shelf) :
    Draft × Shelf :=
  if d.2 then visit references fuel d.1 shelf else (d.1, shelf)

/-- Children are scanned, then visited, then visited again. -/
theorem visitChildren_succ (references : References) (fuel : Nat) (ds : List (Draft × Bool)) :
    ∃ bound, ∀ shelf, visitChildren references (fuel + 1) ds shelf =
      let scanned := scanChildren references bound ds shelf
      let visited := visitReverse (visitScanned references fuel) scanned.1 scanned.2
      visitReverse (visitAgain references fuel) visited.1 visited.2 :=
  ⟨_, fun _ => rfl⟩

theorem sound_visitChildren {references : References} (hrefs : References.Sound g references)
    (fuel : Nat) (ds : List (Draft × Bool)) (shelf : Shelf)
    (hd : ∀ d ∈ ds, Element.Sound g d.1) (h : shelf.Sound g) :
    (∀ d ∈ (visitChildren references fuel ds shelf).1, Element.Sound g d) ∧
      (visitChildren references fuel ds shelf).2.Sound g := by
  induction fuel generalizing ds shelf with
  | zero =>
    refine ⟨?_, h⟩
    intro d hmem
    obtain ⟨e, he, rfl⟩ := List.mem_map.mp hmem
    exact hd e he
  | succ fuel ih =>
    have hvisit : ∀ (d : Draft) (shelf : Shelf), Element.Sound g d → shelf.Sound g →
        Element.Sound g (visit references fuel d shelf).1 ∧
        (visit references fuel d shelf).2.Sound g := by
      intro d shelf hd hs
      obtain ⟨hc, hs'⟩ := ih _ shelf (sound_tagged false hd.inside.children) hs
      exact ⟨hd.withChildren hc, hs'⟩
    obtain ⟨bound, hsucc⟩ := visitChildren_succ references fuel ds
    rw [hsucc]
    refine visitReverse_all (p := fun d : Draft × Bool => Element.Sound g d.1) ?again
      (visitReverse_all (p := Scanned.Sound g) ?scanned
        (sound_scanChildren hrefs bound ds shelf hd h))
    case scanned =>
      intro s shelf hs hshelf
      unfold visitScanned
      split
      · refine And.imp_left ?_ (visitReverse_all (q := Element.Sound g) hvisit ⟨hs.2, hshelf⟩)
        exact fun hfound => hs.1.withChildren hfound
      · obtain ⟨hinner, hshelf'⟩ := ih _ shelf (List.forall_mem_append.mpr
          ⟨sound_tagged true hs.2, sound_tagged false hs.1.inside.children⟩) hshelf
        exact ⟨hs.1.withChildren hinner, hshelf'⟩
    case again =>
      intro d shelf hd hs
      unfold visitAgain
      split
      · exact hvisit d.1 shelf hd hs
      · exact ⟨hd, hs⟩

/-- A document stays sound when its running text is read, and so does the stored markup. -/
theorem sound_readDocument {references : References} (hrefs : References.Sound g references)
    {document : Draft} {stash : Stash} (hs : stash.Sound g) (hi : Inside g document) :
    Grown g document (readDocument references document stash).1 ∧
      (readDocument references document stash).2.Sound g := by
  have hempty : Shelf.Sound g ⟨#[], stash⟩ := ⟨(fun span hm => nomatch hm), hs⟩
  obtain ⟨hchildren, hshelf⟩ := sound_visitChildren hrefs (weight document) _ _
    (sound_tagged false hi.children) hempty
  exact ⟨⟨rfl, rfl, rfl, fun hi => ⟨hi.text, hchildren⟩⟩, hshelf.stash⟩

end Span

end Changelog
