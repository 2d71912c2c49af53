import Changelog.Proofs.Document.Tables

/-!
# Blocks stay in the vocabulary

Whatever block is added to an element, the element keeps its label, its children stay in the
vocabulary, and all texts stay of their grade.  Blocks are added inside other blocks, so each kind of
block is shown to keep documents sound whenever the filling inside it does.
-/

namespace Changelog

open Element Text

namespace Blocks

open Line

/-- A page after more was put into it. -/
structure Page.Grown (g : Grade) (before after : Page) : Prop where
  parent : Element.Grown g before.parent after.parent
  references : References.Sound g before.references → References.Sound g after.references

variable {g : Grade}

theorem Page.Grown.refl (page : Page) : Page.Grown g page page :=
  ⟨Element.Grown.refl _, id⟩

theorem Page.Grown.trans {p q r : Page} (h : Page.Grown g p q) (h' : Page.Grown g q r) :
    Page.Grown g p r :=
  ⟨h.parent.trans h'.parent, fun hp => h'.references (h.references hp)⟩

theorem Page.Grown.ofParent {page : Page} {parent : Draft}
    (h : Element.Grown g page.parent parent) : Page.Grown g page { page with parent } :=
  ⟨h, id⟩

/-- A way of adding blocks of a grade that keeps documents sound. -/
def Fill.Grows (g : Grade) (fill : Fill) : Prop :=
  ∀ mood page blocks, (∀ b ∈ blocks, g.running b) →
    Page.Grown g page (fill mood page blocks)

/-- A page after a step that leaves blocks of the grade. -/
structure Step.Grown (g : Grade) (page : Page) (s : Step) : Prop where
  page : Page.Grown g page s.page
  rest : ∀ b ∈ s.rest, g.running b

variable {fill : Fill} {page : Page} {block : Text} {rest : List Text}

theorem running_requeue (hb : g.running block) (hr : ∀ b ∈ rest, g.running b) :
    ∀ b ∈ requeue block rest, g.running b := by
  unfold requeue
  split
  · exact hr
  · exact List.forall_mem_cons.mpr ⟨hb, hr⟩

theorem running_requeueUnlessBlank (hb : g.running block) (hr : ∀ b ∈ rest, g.running b) :
    ∀ b ∈ requeueUnlessBlank block rest, g.running b := by
  unfold requeueUnlessBlank
  split
  · exact hr
  · exact List.forall_mem_cons.mpr ⟨hb, hr⟩

/-! ### Filling inside an element -/

theorem grown_add (page : Page) {child : Draft} (h : Sound g child) :
    Page.Grown g page (page.add child) :=
  .ofParent (Element.Grown.append page.parent h)

/-- Blocks put into an element inside the page, which is then put back. -/
theorem grown_fillInside (h : fill.Grows g) (mood : Option Mood) {blocks : List Text}
    (hb : ∀ b ∈ blocks, g.running b) {inner : Draft} {place : Draft → Draft}
    (hp : ∀ filled, Element.Grown g inner filled → Element.Grown g page.parent (place filled)) :
    Page.Grown g page (page.fillInside fill mood inner blocks place) := by
  have hfilled := h mood ⟨inner, page.references⟩ blocks hb
  exact ⟨hp _ hfilled.parent, hfilled.references⟩

theorem grown_fillLast (h : fill.Grows g) (mood : Option Mood) (page : Page)
    {blocks : List Text} (hb : ∀ b ∈ blocks, g.running b) :
    Page.Grown g page (page.fillLast fill mood blocks) := by
  unfold Page.fillLast
  cases hl : page.parent.lastChild? with
  | none => exact Page.Grown.refl _
  | some child =>
    refine grown_fillInside h mood hb fun filled hfilled => Element.Grown.mapLast _ page.parent ?_
    intro last hlast hsound
    rw [hl] at hlast
    cases hlast
    exact hfilled.sound hsound

theorem grown_fillNew (h : fill.Grows g) (mood : Option Mood) (page : Page) {tag : String}
    (ht : tag ∈ documentTags) {blocks : List Text} (hb : ∀ b ∈ blocks, g.running b) :
    Page.Grown g page (page.fillNew fill mood tag blocks) :=
  grown_fillInside h mood hb fun _ hfilled =>
    Element.Grown.append page.parent (hfilled.sound (sound_bare ht))

/-! ### Blank lines and code -/

theorem running_codeText {d : Draft} (h : Sound g d) {chars : Text}
    (hc : codeText? d = some chars) : g.running chars := by
  unfold codeText? at hc
  split at hc
  · split at hc
    · next code others hd =>
      split at hc
      · cases hc
        exact (h.inside.children code (hd ▸ List.mem_cons_self)).inside.text
      · cases hc
    · cases hc
  · cases hc

theorem sound_withCodeText {chars : Text} (hc : g.running chars) {d : Draft} (h : Sound g d) :
    Sound g (withCodeText chars d) := by
  unfold withCodeText
  split
  · next code others hd =>
    have hall := h.inside.children
    rw [hd] at hall
    obtain ⟨hcode, hothers⟩ := List.forall_mem_cons.mp hall
    exact h.withChildren (List.forall_mem_cons.mpr ⟨hcode.withText hc, hothers⟩)
  · exact h

theorem grown_mapCode {f : Text → Text} (hf : ∀ chars, g.running chars → g.running (f chars))
    (page : Page) : Page.Grown g page (page.mapCode f) := by
  unfold Page.mapCode
  split
  · next chars hc =>
    refine .ofParent (Element.Grown.mapLast _ page.parent ?_)
    intro child hchild hsound
    rw [hchild] at hc
    exact sound_withCodeText (hf chars (running_codeText hsound hc)) hsound
  · exact Page.Grown.refl _

theorem grown_addBlank (page : Page) (hb : g.running block)
    (hr : ∀ b ∈ rest, g.running b) : Step.Grown g page (addBlank page block rest) := by
  unfold addBlank
  split
  · exact ⟨grown_mapCode (fun chars hc => g.append hc (g.free (by decide))) page, hr⟩
  · next c others =>
    exact ⟨grown_mapCode (fun chars hc => g.append hc (g.free (by decide))) page,
      running_requeue (g.suffix hb (List.suffix_cons c others)) hr⟩

theorem grown_addCode (page : Page) (hb : g.running block)
    (hr : ∀ b ∈ rest, g.running b) : Step.Grown g page (addCode page block rest) := by
  obtain ⟨hcode, hafter⟩ := running_detab hb
  have hshown : g.running (Escape.code (trimEnd (detab block).1) ++ ['\n']) :=
    g.append (g.code (Grade.trimEnd hcode)) (g.free (by decide))
  refine ⟨?_, running_requeue hafter hr⟩
  unfold addCode
  cases page.parent.lastChild?.bind codeText? with
  | some chars =>
    exact grown_mapCode (fun chars hc => g.append hc (Grade.cons (by decide) hshown)) page
  | none =>
    exact grown_add page (sound_inner (by decide)
      (List.forall_mem_singleton.mpr (sound_leaf (by decide) hshown)))

/-! ### Blocks inside list items -/

/-- An element reached by going down last children may grow where it stands. -/
theorem grown_mapDescendant (depth : Nat) (d new : Draft)
    (h : Element.Grown g (lastDescendant d depth) new) :
    Element.Grown g d (mapDescendant (fun _ => new) d depth) := by
  induction depth generalizing d with
  | zero => exact h
  | succ depth ih =>
    unfold mapDescendant
    refine Element.Grown.mapLast _ d ?_
    intro child hl hchild
    unfold lastDescendant at h
    rw [hl] at h
    exact (ih child h).sound hchild

theorem sound_textToParagraph {item : Draft} (h : Sound g item) :
    Sound g (textToParagraph item) := by
  unfold textToParagraph
  split
  · exact h
  · exact ⟨h.fits, Grade.empty, h.tail, List.forall_mem_cons.mpr
      ⟨sound_ofText (by decide) h.inside.text, h.inside.children⟩⟩

theorem grown_addToItem (h : fill.Grows g) (mood : Option Mood) (page : Page)
    (hb : g.running block) (hr : ∀ b ∈ rest, g.running b) :
    Step.Grown g page (addToItem fill mood page block rest) := by
  refine ⟨?_, hr⟩
  unfold addToItem
  dsimp only
  generalize (if mood = some Mood.list then 1 else 0) = start
  generalize descend _ _ start page.parent = reached
  obtain ⟨level, depth⟩ := reached
  dsimp only
  have hinner : g.running (dedentLines level block) := running_dedentLines level hb
  have hblocks : ∀ b ∈ [dedentLines level block], g.running b :=
    List.forall_mem_singleton.mpr hinner
  split
  · split
    · split
      · exact grown_fillLast h _ page hblocks
      · exact h _ page _ hblocks
    · exact h _ page _ hblocks
  · split
    · exact grown_fillInside h _ hblocks fun _ hfilled => grown_mapDescendant depth _ _ hfilled
    · split
      · next item hl =>
        split
        · refine grown_fillInside h _ (Grade.splitText hinner) fun filled hfilled => ?_
          refine grown_mapDescendant depth _ _ (Element.Grown.mapLast _ _ ?_)
          intro child hchild hsound
          rw [hl] at hchild
          cases hchild
          exact hfilled.sound (sound_textToParagraph hsound)
        · exact grown_fillInside h _ hblocks fun _ hfilled => grown_mapDescendant depth _ _
            (Element.Grown.append _ (hfilled.sound (sound_bare (by decide))))
      · exact grown_fillInside h _ hblocks fun _ hfilled => grown_mapDescendant depth _ _
          (Element.Grown.append _ (hfilled.sound (sound_bare (by decide))))

/-! ### Headings and rules -/

theorem headingTag_mem (level : Nat) : headingTag level ∈ documentTags := by
  unfold headingTag
  split <;> decide

theorem grown_before (h : fill.Grows g) (mood : Option Mood) (page : Page) {before : Text}
    (hb : g.running before) :
    Page.Grown g page (if before.isEmpty then page else fill mood page [before]) := by
  split
  · exact Page.Grown.refl _
  · exact h mood page [before] (List.forall_mem_singleton.mpr hb)

theorem grown_addHeading (h : fill.Grows g) (mood : Option Mood) (page : Page)
    {found : Found (Nat × Text × Text)} (hf : findHeading? block = some found)
    (hb : g.running block) (hr : ∀ b ∈ rest, g.running b) :
    Step.Grown g page (addHeading fill mood page found rest) := by
  obtain ⟨hbefore, cs, hread, hcs⟩ := running_found hf hb
  obtain ⟨before, first, level, header, after⟩ := found
  obtain ⟨hheader, hafter⟩ := running_readHeading? hread hcs
  refine ⟨(grown_before h mood page hbefore).trans
    (grown_add _ (sound_ofText (headingTag_mem level) (Grade.trim hheader))),
    running_requeue ?_ hr⟩
  split
  · exact running_dedentLines 1 hafter
  · exact hafter

theorem grown_addUnderlined (page : Page) (level : Nat) (hb : g.running block)
    (hr : ∀ b ∈ rest, g.running b) :
    Step.Grown g page (addUnderlined page level block rest) := by
  have hlines := Grade.lines hb
  have hfirst : g.running ((lines block).headD []) := by
    cases hl : lines block with
    | nil => exact Grade.empty
    | cons line others => exact hlines line (hl ▸ List.mem_cons_self)
  refine ⟨grown_add page (sound_ofText (headingTag_mem level) (Grade.trim hfirst)), ?_⟩
  unfold addUnderlined
  dsimp only
  split
  · exact hr
  · refine List.forall_mem_cons.mpr ⟨Grade.ofLines ?_, hr⟩
    exact fun line hl => hlines line (List.drop_subset 2 _ hl)

theorem grown_addRule (h : fill.Grows g) (mood : Option Mood) (page : Page)
    {before after : List Text} (hs : splitAtRule? (lines block) = some (before, after))
    (hb : g.running block) (hr : ∀ b ∈ rest, g.running b) :
    Step.Grown g page (addRule fill mood page before after rest) := by
  have hlines := Grade.lines hb
  obtain ⟨hbefore, hafter⟩ := splitAtRule?_subset hs
  have hpre : g.running (dropEndWhile (· == '\n') (joinWith ['\n'] before)) :=
    Grade.dropEndWhile (Grade.ofLines fun line hl => hlines line (hbefore hl))
      fun _ => isInner_of_eq_break
  have hpost : g.running ((joinWith ['\n'] after).dropWhile (· == '\n')) :=
    g.suffix (Grade.ofLines fun line hl => hlines line (hafter hl)) (List.dropWhile_suffix _)
  exact ⟨(grown_before h mood page hpre).trans (grown_add _ (sound_bare (by decide))),
    running_requeue hpost hr⟩

/-! ### Lists -/

theorem running_extendLast {all : List Text} (ha : ∀ item ∈ all, g.running item) {line : Text}
    (hl : g.running line) : ∀ item ∈ extendLast all line, g.running item := by
  unfold extendLast
  split
  · exact List.forall_mem_singleton.mpr hl
  · next item others hr =>
    have hall : ∀ i ∈ item :: others, g.running i := by
      rw [← hr]
      exact fun i hi => ha i (List.mem_reverse.mp hi)
    obtain ⟨hitem, hothers⟩ := List.forall_mem_cons.mp hall
    intro i hi
    rcases List.mem_cons.mp (List.mem_reverse.mp hi) with hi | hi
    · rw [hi]
      exact g.append hitem (Grade.cons (by decide) hl)
    · exact hothers i hi

theorem running_addItemLine {all : List Text} (ha : ∀ item ∈ all, g.running item) {line : Text}
    (hl : g.running line) : ∀ item ∈ addItemLine all line, g.running item := by
  unfold addItemLine
  split
  · next text ht =>
    exact List.forall_mem_append.mpr
      ⟨ha, List.forall_mem_singleton.mpr (g.suffix hl (readItem?_suffix ht))⟩
  · split
    · exact List.forall_mem_append.mpr ⟨ha, List.forall_mem_singleton.mpr hl⟩
    · exact running_extendLast ha hl

theorem running_items (hb : g.running block) : ∀ item ∈ items block, g.running item := by
  have hfold (pieces : List Text) (hp : ∀ line ∈ pieces, g.running line) (all : List Text)
      (ha : ∀ item ∈ all, g.running item) :
      ∀ item ∈ pieces.foldl addItemLine all, g.running item := by
    induction pieces generalizing all with
    | nil => exact ha
    | cons line pieces ih =>
      obtain ⟨hline, hothers⟩ := List.forall_mem_cons.mp hp
      exact ih hothers _ (running_addItemLine ha hline)
  exact hfold (lines block) (Grade.lines hb) [] (List.forall_mem_nil _)

theorem sound_loosen {item : Draft} (h : Sound g item) : Sound g (loosen item) := by
  have hp := sound_textToParagraph h
  unfold loosen
  generalize textToParagraph item = item at hp
  dsimp only
  split
  · next child hl =>
    split
    · exact hp
    · have hchild := hp.inside.children child (List.mem_of_getLast? hl)
      refine Element.Grown.sound (.trans (Element.Grown.mapLast _ item ?_)
        (Element.Grown.append _ (sound_ofText (by decide) (Grade.trimStart hchild.tail)))) hp
      exact fun last _ hlast => hlast.withTail Grade.empty
  · exact hp

theorem grown_addItem (h : fill.Grows g) (list : Page) {item : Text} (hi : g.running item) :
    Page.Grown g list (addItem fill list item) := by
  unfold addItem
  split
  · exact grown_fillLast h _ list (List.forall_mem_singleton.mpr hi)
  · exact grown_fillNew h _ list (by decide) (List.forall_mem_singleton.mpr hi)

theorem grown_addItems (h : fill.Grows g) {all : List Text} (ha : ∀ item ∈ all, g.running item)
    (list : Page) : Page.Grown g list (all.foldl (addItem fill) list) := by
  induction all generalizing list with
  | nil => exact Page.Grown.refl _
  | cons item all ih =>
    obtain ⟨hitem, hothers⟩ := List.forall_mem_cons.mp ha
    exact (grown_addItem h list hitem).trans (ih hothers _)

theorem grown_addNew (h : fill.Grows g) {tag : String} (ht : tag ∈ documentTags) (page : Page)
    {all : List Text} (ha : ∀ item ∈ all, g.running item) :
    Page.Grown g page (addList.addNew fill tag page all) := by
  unfold addList.addNew
  split
  · exact grown_addItems h ha page
  · have hlist := grown_addItems h ha ⟨Element.bare tag, page.references⟩
    exact ⟨Element.Grown.append _ (hlist.parent.sound (sound_bare ht)), hlist.references⟩

theorem grown_addList (h : fill.Grows g) {tag : String} (ht : tag ∈ documentTags) (page : Page)
    (hb : g.running block) (hr : ∀ b ∈ rest, g.running b) :
    Step.Grown g page (addList fill tag page block rest) := by
  have hitems := running_items hb
  refine ⟨?_, hr⟩
  unfold addList
  dsimp only
  split
  · next sibling hl =>
    split
    · have hloose : Element.Grown g sibling (sibling.mapLast loosen) :=
        Element.Grown.mapLast _ _ fun item _ hitem => sound_loosen hitem
      have hfirst := grown_fillNew h (some .looseList)
        ⟨sibling.mapLast loosen, page.references⟩ (by decide : "li" ∈ documentTags)
        fun item hi => hitems item (List.take_subset 1 _ hi)
      have hlist := hfirst.trans (grown_addItems h
        (fun item hi => hitems item (List.drop_subset 1 _ hi)) _)
      refine ⟨Element.Grown.mapLast _ page.parent ?_, hlist.references⟩
      intro child hchild hsound
      rw [hl] at hchild
      cases hchild
      exact (hloose.trans hlist.parent).sound hsound
    · exact grown_addNew h ht page hitems
  · exact grown_addNew h ht page hitems

/-! ### Quotes, link targets and paragraphs -/

theorem grown_addQuote (h : fill.Grows g) (mood : Option Mood) (page : Page)
    {found : Found Text} (hf : findQuote? block = some found) (hb : g.running block)
    (hr : ∀ b ∈ rest, g.running b) :
    Step.Grown g page (addQuote fill mood page found rest) := by
  obtain ⟨hbefore, cs, hread, hcs⟩ := running_found hf hb
  obtain ⟨-, -, hvalue⟩ := Option.map_eq_some_iff.mp hread
  rw [hvalue] at hcs
  have hquoted : g.running (if found.first then found.value else '\n' :: found.value) := by
    split
    · exact hcs
    · exact Grade.cons (by decide) hcs
  have hinner := Grade.splitText (Grade.ofLines fun line hl => by
    obtain ⟨old, hold, rfl⟩ := List.mem_map.mp hl
    exact running_unquote (Grade.lines hquoted old hold))
  refine ⟨(h mood page [found.before] (List.forall_mem_singleton.mpr hbefore)).trans ?_, hr⟩
  unfold addQuote
  dsimp only
  split
  · split
    · exact grown_fillLast h _ _ hinner
    · exact grown_fillNew h _ _ (by decide) hinner
  · exact grown_fillNew h _ _ (by decide) hinner

/-- What holds of a link target that is read from a text of the grade. -/
theorem value_target {cs : Text} (h : g.running cs) {target : Target}
    (ht : readTarget? cs = some target) :
    g.value target.address ∧ (∀ title ∈ target.title, g.value title) ∧
      g.running target.rest := by
  obtain ⟨haddress, htitle, hrest, -⟩ := readTarget?_spec ht
  have hv := g.value_of_running h
  exact ⟨g.part hv haddress, fun title hm => g.part hv (htitle title hm), g.suffix h hrest⟩

theorem sound_addTargets (steps : Nat) (references : References) (target : Target)
    (ha : g.value target.address) (ht : ∀ title ∈ target.title, g.value title)
    (hr : g.running target.rest) :
    (References.Sound g references →
      References.Sound g (addTargets steps references target).1) ∧
      g.running (addTargets steps references target).2 := by
  induction steps generalizing references target with
  | zero => exact ⟨id, hr⟩
  | succ steps ih =>
    have hafter : g.running (target.rest.dropWhile (· == '\n')) :=
      g.suffix hr (List.dropWhile_suffix _)
    have hmore : References.Sound g references →
        References.Sound g ((target.name, target.address, target.title) :: references) :=
      fun h => List.forall_mem_cons.mpr ⟨⟨ha, ht⟩, h⟩
    unfold addTargets
    dsimp only
    split
    · next next hnext =>
      obtain ⟨ha', ht', hr'⟩ := value_target hafter hnext
      obtain ⟨hrefs, hrest⟩ := ih _ next ha' ht' hr'
      exact ⟨fun h => hrefs (hmore h), hrest⟩
    · exact ⟨hmore, hafter⟩

theorem grown_addTarget (page : Page) {found : Found Target}
    (hf : findTarget? block = some found) (hb : g.running block)
    (hr : ∀ b ∈ rest, g.running b) : Step.Grown g page (addTarget page found rest) := by
  obtain ⟨hbefore, cs, hread, hcs⟩ := running_found hf hb
  obtain ⟨ha, ht, hrest⟩ := value_target hcs hread
  obtain ⟨hrefs, hafter⟩ := sound_addTargets (found.value.rest.length + 1) page.references
    found.value ha ht hrest
  exact ⟨⟨Element.Grown.refl _, hrefs⟩, running_requeueUnlessBlank
    (Grade.dropEndWhile hbefore fun _ => isInner_of_eq_break)
    (running_requeueUnlessBlank hafter hr)⟩

theorem grown_addParagraph (mood : Option Mood) (page : Page) (hb : g.running block)
    (hr : ∀ b ∈ rest, g.running b) :
    Step.Grown g page (addParagraph mood page block rest) := by
  have htrim := Grade.trimStart hb
  refine ⟨?_, hr⟩
  unfold addParagraph
  dsimp only
  refine .ofParent ?_
  split
  · exact Element.Grown.refl _
  · split
    · split
      · exact Element.Grown.mapLast _ page.parent fun child _ hc =>
          hc.withTail (g.append hc.tail (Grade.cons (by decide) hb))
      · refine ⟨rfl, rfl, rfl, fun hi => ⟨?_, hi.children⟩⟩
        show g.running (if _ then _ else _)
        split
        · exact htrim
        · exact g.append hi.text (Grade.cons (by decide) htrim)
    · exact Element.Grown.append _ (sound_ofText (by decide) htrim)

/-! ### All blocks -/

/-- One block of any kind keeps documents sound when the filling inside it does. -/
theorem grown_step (h : fill.Grows g) (mood : Option Mood) (page : Page) (hb : g.running block)
    (hr : ∀ b ∈ rest, g.running b) :
    Step.Grown g page (step fill mood page block rest) := by
  unfold step
  split
  · exact grown_addBlank page hb hr
  split
  · exact grown_addToItem h mood page hb hr
  split
  · exact grown_addCode page hb hr
  cases Table.frame? block with
  | some frame => exact ⟨grown_add page (Table.sound_draft frame hb), hr⟩
  | none =>
    cases hheading : findHeading? block with
    | some found => exact grown_addHeading h mood page hheading hb hr
    | none =>
      cases underlinedLevel? block with
      | some level => exact grown_addUnderlined page level hb hr
      | none =>
        cases hrule : splitAtRule? (lines block) with
        | some parts => exact grown_addRule h mood page hrule hb hr
        | none =>
          dsimp only
          split
          · exact grown_addList h (by decide) page hb hr
          split
          · exact grown_addList h (by decide) page hb hr
          cases hquote : findQuote? block with
          | some found => exact grown_addQuote h mood page hquote hb hr
          | none =>
            cases htarget : findTarget? block with
            | some found => exact grown_addTarget page htarget hb hr
            | none => exact grown_addParagraph mood page hb hr

theorem grows_fillWithin (fuel : Nat) : Fill.Grows g (fillWithin fuel) := by
  induction fuel with
  | zero => exact fun mood page blocks _ => Page.Grown.refl _
  | succ fuel ih =>
    intro mood page blocks hb
    cases blocks with
    | nil => exact Page.Grown.refl _
    | cons block rest =>
      obtain ⟨hblock, hrest⟩ := List.forall_mem_cons.mp hb
      have hstep := grown_step ih mood page hblock hrest
      exact hstep.page.trans (ih mood _ _ hstep.rest)

/-- The blocks of a source of the grade are sound, below a root that is bare. -/
theorem grown_read (references : References) {source : Text} (h : g.running source) :
    Page.Grown g ⟨Element.bare "div", references⟩ (read references source) :=
  grows_fillWithin _ none ⟨Element.bare "div", references⟩ (chunks source) (Grade.splitText h)

end Blocks

end Changelog
