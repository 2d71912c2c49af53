import Changelog.Markdown.Fence
import Changelog.Markdown.Source
import Changelog.Proofs.Marks.Changes
import Changelog.Proofs.Text.LineEnds

/-!
# Marks of stored markup

A clean source holds no mark.  Where fenced code is stored marks of stored markup come into it, and
nothing else: in such a text every mark goes on with its word, a number that was not given before and
its end, and a text may be cut everywhere but inside a mark.
-/

namespace Changelog

open Text

namespace Mark

/-- A mark of stored markup goes on with its word, a number that is `least` or more, and its end. -/
def Stored (least : Nat) (rest : Text) : Prop :=
  ∃ n more, least ≤ n ∧ rest = rawWord ++ decimal n ++ closing :: more

/-- All marks of a text are marks of stored markup. -/
def OnlyRaw (least : Nat) : Text → Prop :=
  Each (Stored least)

variable {least : Nat}

theorem Stored.append {front : Text} (h : Stored least front) (rest : Text) :
    Stored least (front ++ rest) := by
  obtain ⟨n, more, hn, rfl⟩ := h
  exact ⟨n, more ++ rest, hn, by rw [List.append_assoc _ _ rest, List.cons_append]⟩

namespace OnlyRaw

variable {cs ds : Text}

theorem of_not_mem (h : opening ∉ cs) : OnlyRaw least cs :=
  each_of_not_mem h

theorem append (h : OnlyRaw least cs) (h' : OnlyRaw least ds) : OnlyRaw least (cs ++ ds) :=
  Each.append (fun _ hf => hf.append ds) h h'

theorem suffix (h : OnlyRaw least cs) (hs : ds <:+ cs) : OnlyRaw least ds :=
  Each.suffix h hs

theorem cut (h : OnlyRaw least (cs ++ ds)) (hd : ∀ c ∈ ds.head?, isInner c = false) :
    OnlyRaw least cs := by
  refine Each.cut ?_ h
  rintro front ⟨n, more, hn, hcs⟩
  rcases cases_cut_closed (Body.raw hn).inner hcs with ⟨left, hfront⟩ | ⟨-, c, behind, rfl, hc⟩
  · exact ⟨n, left, hn, hfront⟩
  · rw [hd c rfl] at hc
    cases hc

/-- A text is cut in front of a character that is in no mark. -/
theorem before {c : Char} (h : OnlyRaw least (cs ++ c :: ds))
    (hc : isInner c = false := by decide) : OnlyRaw least cs :=
  cut h fun _ hd => Option.some.inj hd ▸ hc

theorem whole (h : OnlyRaw least cs) : Whole least cs := by
  refine Each.imp (fun rest hr => ?_) h
  obtain ⟨n, more, hn, rfl⟩ := hr
  exact .whole (.raw hn) more

theorem raw {index : Nat} (h : least ≤ index) : OnlyRaw least (Mark.raw index) := by
  have htail := opening_not_mem_raw_tail index
  rw [← List.append_assoc] at htail
  exact ⟨fun _ => ⟨index, [], h, rfl⟩, each_of_not_mem htail⟩

/-- A text is cut behind a character that is in no mark. -/
theorem through {c : Char} (h : OnlyRaw least (cs ++ c :: ds))
    (hc : isInner c = false := by decide) (ho : c ≠ opening := by decide) :
    OnlyRaw least (cs ++ [c]) := by
  refine append (before h hc) (of_not_mem fun hm => ?_)
  exact ho (List.mem_singleton.mp hm).symm

end OnlyRaw

end Mark

/-! ### Clean sources -/

namespace Source

theorem mem_expandTabs {c : Char} {column : Nat} {cs : Text} (h : c ∈ expandTabs column cs) :
    c ∈ cs ∨ c = ' ' := by
  induction cs generalizing column with
  | nil => cases h
  | cons d cs ih =>
    have hlater {column : Nat} (h : c ∈ d :: expandTabs column cs) : c ∈ d :: cs ∨ c = ' ' := by
      rcases List.mem_cons.mp h with h | h
      · exact Or.inl (h ▸ List.mem_cons_self)
      · exact (ih h).imp (List.mem_cons_of_mem _) id
    unfold expandTabs at h
    split at h
    · rcases List.mem_append.mp h with h | h
      · exact Or.inr (List.eq_of_mem_replicate h)
      · exact (ih h).imp (List.mem_cons_of_mem _) id
    · split at h
      · exact hlater h
      · exact hlater h

theorem mem_clearBlank {c : Char} {cs : Text} (h : c ∈ clearBlank cs) : c ∈ cs ∨ c = '\n' := by
  have hclear {pieces : List Text} {line : Text} (hl : line ∈ clearLines pieces) :
      line ∈ pieces ∨ line = [] := by
    fun_induction clearLines pieces with
    | case1 => cases hl
    | case2 => exact Or.inl hl
    | case3 first others _ ih =>
      rcases List.mem_cons.mp hl with hl | hl
      · split at hl
        · exact Or.inr hl
        · exact Or.inl (hl ▸ List.mem_cons_self)
      · exact (ih hl).imp (List.mem_cons_of_mem _) id
  unfold clearBlank at h
  split at h
  · cases h
  · next first others hs =>
    rcases mem_joinWith h with h | ⟨line, hl, hc⟩
    · exact Or.inr (List.mem_singleton.mp h)
    · have hline : line ∈ lines cs ∨ line = [] := by
        rw [hs]
        rcases List.mem_cons.mp hl with hl | hl
        · exact Or.inl (hl ▸ List.mem_cons_self)
        · exact (hclear hl).imp (List.mem_cons_of_mem _) id
      rcases hline with hline | hline
      · exact Or.inl (mem_lines hline hc)
      · rw [hline] at hc
        cases hc

/-- A clean source holds no mark. -/
theorem opening_not_mem_clean (source : Text) : Mark.opening ∉ clean source := by
  intro h
  have hdrop : Mark.opening ∉ dropMarks source := fun hm => by
    have hf := (List.mem_filter.mp hm).2
    revert hf
    decide
  rcases mem_clearBlank h with h | h
  · rcases mem_expandTabs h with h | h
    · rcases List.mem_append.mp h with h | h
      · rcases mem_normalizeLines h with h | h
        · exact hdrop h
        · revert h
          decide
      · revert h
        decide
    · revert h
      decide
  · revert h
    decide

end Source

/-! ### Fenced code -/

namespace Fence

theorem readWord_subset (cs : Text) : (readWord cs).1 ⊆ cs ∧ (readWord cs).2 ⊆ cs := by
  have hsplit := spanWhile_append (fun c => c != ' ' && c != '=' && c != '}') cs
  refine ⟨fun c hc => ?_, (spanWhile_suffix _ cs).subset⟩
  rw [← hsplit]
  exact List.mem_append_left _ hc

theorem readQuotedValue?_subset {mark : Char} {cs inside rest : Text}
    (h : readQuotedValue? mark cs = some (inside, rest)) : inside ⊆ cs ∧ rest ⊆ cs := by
  unfold readQuotedValue? at h
  split at h
  · next c cs =>
    split at h
    · split at h
      · next i d r hs =>
        cases h
        rw [(spanWhile_spec hs).1]
        exact ⟨fun x hx => by simp [hx], fun x hx => by simp [hx]⟩
      · cases h
    · cases h
  · cases h

theorem readValue?_subset {cs value rest : Text} (h : readValue? cs = some (value, rest)) :
    value ⊆ cs ∧ rest ⊆ cs := by
  rcases Option.or_eq_some_iff.mp h with h | ⟨-, h⟩
  · rcases Option.or_eq_some_iff.mp h with h | ⟨-, h⟩
    · exact readQuotedValue?_subset h
    · exact readQuotedValue?_subset h
  · split at h
    · cases h
    · have hword := readWord_subset cs
      rw [Option.some.inj h] at hword
      exact hword

/-- The characters of an item. -/
def Item.chars : Item → Text
  | .pair key value => key ++ value
  | .word text => text

theorem readItem?_subset {cs rest : Text} {item : Item} (h : readItem? cs = some (item, rest)) :
    item.chars ⊆ cs ∧ rest ⊆ cs := by
  obtain ⟨hkey, hrest⟩ := readWord_subset cs
  unfold readItem? at h
  split at h
  · cases h
  · next key more _ hs =>
    rw [hs] at hkey hrest
    split at h
    · next value after hv =>
      cases h
      obtain ⟨hvalue, hafter⟩ := readValue?_subset hv
      have hmore : more ⊆ cs := fun c hc => hrest (List.mem_cons_of_mem '=' hc)
      exact ⟨List.append_subset.mpr ⟨hkey, List.Subset.trans hvalue hmore⟩,
        List.Subset.trans hafter hmore⟩
    · cases h
      exact ⟨hkey, hrest⟩
  · next key more _ _ hs =>
    rw [hs] at hkey hrest
    cases h
    exact ⟨hkey, hrest⟩

theorem readItems_subset (steps : Nat) (cs : Text) :
    ∀ item ∈ (readItems steps cs).1, item.chars ⊆ cs := by
  fun_induction readItems steps cs with
  | case1 => exact List.forall_mem_nil _
  | case2 => exact List.forall_mem_nil _
  | case3 steps cs ih =>
    exact fun item hi => List.Subset.trans (ih item hi) (List.subset_cons_self _ _)
  | case4 => exact List.forall_mem_nil _
  | case5 =>
    next item rest hr more ih =>
    obtain ⟨hitem, hrest⟩ := readItem?_subset hr
    exact List.forall_mem_cons.mpr ⟨hitem, fun other ho => List.Subset.trans (ih other ho) hrest⟩

/-- The name that a naming gives. -/
def Naming.name : Naming → Text
  | .className name => name
  | .id name => name

theorem naming?_subset {item : Item} {naming : Naming} (h : item.naming? = some naming) :
    naming.name ⊆ item.chars := by
  unfold Item.naming? at h
  split at h
  · cases h
    exact List.subset_cons_self _ _
  · cases h
    exact List.subset_cons_self _ _
  · split at h
    · cases h
      exact List.Subset.refl _
    · cases h
  · split at h
    · cases h
      exact List.subset_append_right _ _
    · split at h
      · cases h
        exact List.subset_append_right _ _
      · cases h

/-- No mark begins in the language, the classes and the id of fenced code. -/
structure Info.Free (info : Info) : Prop where
  language : ∀ name ∈ info.language, Mark.opening ∉ name
  classes : ∀ name ∈ info.classes, Mark.opening ∉ name
  id : Mark.opening ∉ info.id

theorem free_classesOf {items : List Item} (h : ∀ item ∈ items, Mark.opening ∉ item.chars) :
    ∀ name ∈ classesOf items, Mark.opening ∉ name := by
  intro name hn
  obtain ⟨item, hi, hname⟩ := List.mem_filterMap.mp hn
  split at hname
  · next found hf =>
    cases hname
    exact fun hm => h item hi (naming?_subset hf hm)
  · cases hname

theorem free_idOf {items : List Item} (h : ∀ item ∈ items, Mark.opening ∉ item.chars) :
    Mark.opening ∉ idOf items := by
  unfold idOf
  refine List.foldlRecOn (motive := (Mark.opening ∉ ·)) items _ List.not_mem_nil ?_
  intro id hid item hitem
  split
  · next name hf => exact fun hm => h item hitem (naming?_subset hf hm)
  · exact hid

theorem free_readAttributes? {cs : Text} (hc : Mark.opening ∉ cs) {info : Info}
    (h : readAttributes? cs = some info) : info.Free := by
  have hitems : ∀ item ∈ (readItems cs.length cs).1, Mark.opening ∉ item.chars :=
    fun item hi hm => hc (readItems_subset _ _ item hi hm)
  have hclasses := free_classesOf hitems
  have hid := free_idOf hitems
  unfold readAttributes? at h
  dsimp only at h
  split at h
  · cases h
  · split at h
    · cases h
      exact ⟨(fun name hn => by cases hn), List.forall_mem_nil _, hid⟩
    · next language classes hs =>
      cases h
      rw [hs] at hclasses
      obtain ⟨hlanguage, hothers⟩ := List.forall_mem_cons.mp hclasses
      exact ⟨fun name hn => Option.some.inj hn ▸ hlanguage, hothers, hid⟩

/-- The characters of a header. -/
def Header.chars : Header → Text
  | .attributes text => text
  | .language name => name

theorem free_info? {header : Header} (hh : Mark.opening ∉ header.chars) {info : Info}
    (h : header.info? = some info) : info.Free := by
  unfold Header.info? at h
  split at h
  · cases h
    exact ⟨fun name hn => (nomatch hn), List.forall_mem_nil _, List.not_mem_nil⟩
  · exact free_readAttributes? hh h
  · next name =>
    cases h
    refine ⟨fun other ho => ?_, List.forall_mem_nil _, List.not_mem_nil⟩
    dsimp only at ho
    split at ho
    · cases ho
    · cases ho
      exact hh

theorem afterHighlight?_subset {mark : Char} {line : Text} {following inside : List Text}
    (h : afterHighlight? mark line following = some inside) : inside ⊆ following := by
  fun_induction afterHighlight? mark line following with
  | case1 => cases h
  | case2 =>
    cases h
    exact List.Subset.refl _
  | case3 => cases h
  | case4 => next ih => exact List.Subset.trans (ih h) (List.subset_cons_self _ _)

theorem afterLanguage?_subset {rest : Text} {following inside : List Text}
    (h : afterLanguage? rest following = some inside) : inside ⊆ following := by
  unfold afterLanguage? at h
  split at h
  · split at h
    · exact afterHighlight?_subset h
    · cases h
  · cases h
  · split at h
    · cases h
      exact List.Subset.refl _
    · cases h

theorem readLanguage?_subset {cs : Text} {following inside : List Text} {header : Header}
    (h : readLanguage? cs following = some (header, inside)) :
    header.chars ⊆ cs ∧ inside ⊆ following := by
  unfold readLanguage? at h
  extract_lets bare at h
  have hbare : bare ⊆ cs := by
    unfold bare
    split
    · exact List.subset_cons_self _ _
    · exact List.Subset.refl _
  split at h
  next name rest hs =>
  have hname : name ⊆ cs := by
    rw [(spanWhile_spec hs).1] at hbare
    exact List.Subset.trans (List.subset_append_left _ _) hbare
  split at h
  · next found hf =>
    cases h
    exact ⟨hname, afterLanguage?_subset hf⟩
  · split at h
    · obtain ⟨found, hfound, heq⟩ := Option.map_eq_some_iff.mp h
      cases heq
      exact ⟨List.Subset.trans (List.take_subset _ _) hname, afterLanguage?_subset hfound⟩
    · cases h

theorem readFence?_suffix {line fence rest : Text} (h : readFence? line = some (fence, rest)) :
    rest <:+ line := by
  unfold readFence? at h
  dsimp only at h
  split at h
  · have hs := spanWhile_suffix (· == '~') line
    rwa [Option.some.inj h] at hs
  · split at h
    · have hs := spanWhile_suffix (· == '\x60') line
      rwa [Option.some.inj h] at hs
    · cases h

theorem readOpening?_subset {line fence : Text} {following inside : List Text} {header : Header}
    (h : readOpening? line following = some (fence, header, inside)) :
    header.chars ⊆ line ∧ inside ⊆ following := by
  obtain ⟨⟨f, rest⟩, hf, hr⟩ := Option.bind_eq_some_iff.mp h
  obtain ⟨⟨found, behind⟩, hfound, heq⟩ := Option.map_eq_some_iff.mp hr
  cases heq
  have hline : rest.dropWhile (· == ' ') ⊆ line :=
    ((List.dropWhile_suffix _).trans (readFence?_suffix hf)).subset
  split at hfound
  · next text hs =>
    rw [hs] at hline
    split at hfound
    · cases hfound
      refine ⟨?_, List.Subset.refl _⟩
      exact List.Subset.trans (List.Subset.trans (List.dropLast_subset text)
        (List.subset_cons_self _ _)) hline
    · cases hfound
  · obtain ⟨hheader, hinside⟩ := readLanguage?_subset hfound
    exact ⟨List.Subset.trans hheader hline, hinside⟩

theorem splitAtClosing?_subset {fence : Text} {pieces code after : List Text}
    (h : splitAtClosing? fence pieces = some (code, after)) :
    code ⊆ pieces ∧ after ⊆ pieces := by
  induction pieces generalizing code with
  | nil => cases h
  | cons line more ih =>
    unfold splitAtClosing? at h
    split at h
    · cases h
      exact ⟨List.nil_subset _, List.subset_cons_self _ _⟩
    · obtain ⟨⟨c, a⟩, hr, heq⟩ := Option.map_eq_some_iff.mp h
      cases heq
      obtain ⟨hcode, hafter⟩ := ih hr
      exact ⟨List.cons_subset_cons line hcode,
        List.Subset.trans hafter (List.subset_cons_self _ _)⟩

/-! ### The markup of fenced code -/

theorem free_value {cs : Text} (h : Mark.opening ∉ cs) : Mark.opening ∉ Escape.value cs := by
  unfold Escape.value
  induction cs with
  | nil => exact List.not_mem_nil
  | cons c cs ih =>
    rw [List.mem_cons, not_or] at h
    obtain ⟨image, himage, hi⟩ := Mark.characters_cons true c cs
    rw [himage, List.mem_append, not_or]
    refine ⟨?_, ih h.2⟩
    rcases hi with ⟨hc, -⟩ | hi
    · exact absurd hc.symm h.1
    · exact hi

theorem free_codeChar {c : Char} (h : c ≠ Mark.opening) : Mark.opening ∉ codeChar c := by
  unfold codeChar
  split
  · decide
  · exact Mark.opening_not_mem_codeChar h

theorem free_writeAttribute {value : Text} (h : Mark.opening ∉ value) :
    Mark.opening ∉ writeAttribute "id" value := by
  unfold writeAttribute
  split
  · exact List.not_mem_nil
  · simp only [List.mem_cons, List.mem_append, not_or]
    exact ⟨by decide, ⟨⟨by decide, by decide⟩, free_value h⟩, by decide⟩

/-- No mark begins in the markup of fenced code. -/
theorem free_write {info : Info} (hi : info.Free) {code : List Text}
    (hc : ∀ line ∈ code, Mark.opening ∉ line) : Mark.opening ∉ write info code := by
  unfold write
  extract_lets language
  have hlanguage : Mark.opening ∉ language := by
    unfold language
    split
    · next name hn =>
      split
      · exact List.not_mem_nil
      · rw [List.mem_append, List.mem_append, not_or, not_or]
        exact ⟨⟨by decide, free_value (hi.language name hn)⟩, by decide⟩
    · exact List.not_mem_nil
  have hclasses : Mark.opening ∉ (if info.classes = [] then ([] : Text) else
      " class=\"".toList ++ Escape.value (joinWith [' '] info.classes) ++ ['"']) := by
    split
    · exact List.not_mem_nil
    · rw [List.mem_append, List.mem_append, not_or, not_or]
      refine ⟨⟨by decide, free_value fun hm => ?_⟩, by decide⟩
      rcases mem_joinWith hm with hm | ⟨name, hn, hm⟩
      · revert hm
        decide
      · exact hi.classes name hn hm
  have hcode : Mark.opening ∉
      (code.flatMap fun line => line ++ ['\n']).flatMap codeChar := by
    intro hm
    obtain ⟨c, hmem, hin⟩ := List.mem_flatMap.mp hm
    obtain ⟨line, hl, hcl⟩ := List.mem_flatMap.mp hmem
    refine free_codeChar (fun ho => ?_) hin
    rcases List.mem_append.mp hcl with hcl | hcl
    · exact hc line hl (ho ▸ hcl)
    · rw [List.mem_singleton.mp hcl] at ho
      cases ho
  simp only [List.mem_append, not_or]
  exact ⟨⟨⟨⟨⟨⟨⟨by decide, free_writeAttribute hi.id⟩, hclasses⟩, by decide⟩, hlanguage⟩,
    by decide⟩, hcode⟩, by decide⟩

end Fence

/-! ### Fenced code stored -/

/-- The marks in stored markup are marks of stored markup alone, and the next mark is numbered from
`least` on. -/
structure Stash.OnlyRaw (least : Nat) (stash : Stash) : Prop where
  counted : least ≤ stash.count
  entries : ∀ entry ∈ stash.entries, Mark.OnlyRaw least entry

variable {least : Nat}

theorem Stash.OnlyRaw.store {stash : Stash} (h : stash.OnlyRaw least) {markup : Text}
    (hm : Mark.OnlyRaw least markup) : (stash.store markup).2.OnlyRaw least :=
  ⟨Nat.le_succ_of_le h.counted,
    List.forall_mem_append.mpr ⟨h.entries, List.forall_mem_singleton.mpr hm⟩⟩

namespace Fence

theorem onlyRaw_storeLines (steps : Nat) {stash : Stash} (hs : stash.OnlyRaw least)
    {pieces : List Text} (hp : ∀ line ∈ pieces, Mark.opening ∉ line) :
    (∀ line ∈ (storeLines steps stash pieces).1, Mark.OnlyRaw least line) ∧
      (storeLines steps stash pieces).2.OnlyRaw least := by
  induction steps generalizing stash pieces with
  | zero => exact ⟨fun line hl => Mark.OnlyRaw.of_not_mem (hp line hl), hs⟩
  | succ steps ih =>
    cases pieces with
    | nil => exact ⟨List.forall_mem_nil _, hs⟩
    | cons line following =>
      obtain ⟨hline, hfollowing⟩ := List.forall_mem_cons.mp hp
      unfold storeLines
      dsimp only
      split
      · next markup after hf =>
        obtain ⟨⟨fence, header, inside⟩, hopening, hf⟩ := Option.bind_eq_some_iff.mp hf
        obtain ⟨⟨code, behind⟩, hclosing, hf⟩ := Option.bind_eq_some_iff.mp hf
        obtain ⟨info, hinfo, hf⟩ := Option.bind_eq_some_iff.mp hf
        cases hf
        obtain ⟨hheader, hinside⟩ := readOpening?_subset hopening
        obtain ⟨hcode, hafter⟩ := splitAtClosing?_subset hclosing
        -- The markup is made of characters of the source, which holds no mark, and of nothing else.
        have hfree : info.Free := free_info? (fun hm => hline (hheader hm)) hinfo
        have hmarkup : Mark.opening ∉ write info code :=
          free_write hfree fun l hl => hfollowing l (hinside (hcode hl))
        obtain ⟨hrest, hfinal⟩ := ih (hs.store (Mark.OnlyRaw.of_not_mem hmarkup))
          fun l hl => hfollowing l (hinside (hafter hl))
        exact ⟨List.forall_mem_cons.mpr ⟨trivial, List.forall_mem_cons.mpr
          ⟨Mark.OnlyRaw.raw hs.counted, List.forall_mem_cons.mpr ⟨trivial, hrest⟩⟩⟩, hfinal⟩
      · obtain ⟨hrest, hfinal⟩ := ih hs hfollowing
        exact ⟨List.forall_mem_cons.mpr ⟨Mark.OnlyRaw.of_not_mem hline, hrest⟩, hfinal⟩

/-- Fenced code stored leaves marks of stored markup in the source, and none in the markup. -/
theorem onlyRaw_store {stash : Stash} (hs : stash.OnlyRaw least) {source : Text}
    (h : Mark.opening ∉ source) :
    Mark.OnlyRaw least (store stash source).1 ∧ (store stash source).2.OnlyRaw least := by
  obtain ⟨hlines, hfinal⟩ := onlyRaw_storeLines (lines source).length hs
    fun line hl hm => h (mem_lines hl hm)
  refine ⟨?_, hfinal⟩
  unfold store
  dsimp only
  generalize (storeLines (lines source).length stash (lines source)).1 = pieces at hlines
  induction pieces with
  | nil => trivial
  | cons piece pieces ih =>
    obtain ⟨hpiece, hothers⟩ := List.forall_mem_cons.mp hlines
    cases pieces with
    | nil => exact hpiece
    | cons next others =>
      exact (hpiece.append (.of_not_mem (by decide))).append (ih hothers)

end Fence

end Changelog
