import Changelog.Proofs.Document.Readers

/-!
# Links, images and markup are sound

The address and the title of a link are parts of the text in its parentheses, wherever that text is
cut.  A text in brackets and a piece of markup end with a character that is in no mark.
-/

namespace Changelog.Span

open Element Text

variable {g : Grade} {shelf : Shelf}

/-! ### Markup and character references -/

theorem readCommentBody?_eq {cs body rest : Text} (h : readCommentBody? cs = some (body, rest)) :
    ∃ inside, body = inside ++ "-->".toList ∧ cs = body ++ rest := by
  induction cs generalizing body with
  | nil => cases h
  | cons c cs ih =>
    unfold readCommentBody? at h
    split at h
    · next left hafter =>
      cases h
      exact ⟨[], rfl, (after?_eq_some_iff _ _ _).mp hafter⟩
    · split at h
      · cases h
      · obtain ⟨⟨b, r⟩, hr, heq⟩ := Option.map_eq_some_iff.mp h
        cases heq
        obtain ⟨inside, rfl, hcs⟩ := ih hr
        exact ⟨c :: inside, rfl, congrArg (c :: ·) hcs⟩

theorem readThrough?_eq {closing cs body rest : Text}
    (h : readThrough? closing cs = some (body, rest)) :
    ∃ inside, body = inside ++ closing ∧ cs = body ++ rest := by
  obtain ⟨⟨before, after⟩, hs, heq⟩ := Option.map_eq_some_iff.mp h
  cases heq
  exact ⟨before, rfl, splitFirst?_eq _ _ _ _ hs⟩

theorem afterValue?_suffix {cs rest : Text} (h : afterValue? cs = some rest) : rest <:+ cs := by
  unfold afterValue? at h
  split at h
  · cases h
  · next c cs =>
    split at h
    · split at h
      · cases h
      · next d left hs =>
        cases h
        have hsuffix := spanWhile_suffix (· != c) cs
        rw [hs] at hsuffix
        exact ((List.suffix_cons _ _).trans hsuffix).trans (List.suffix_cons _ _)
    · split at h
      · cases h
      · next left _ hs =>
        cases h
        obtain ⟨hcs, -, -⟩ := spanWhile_spec hs
        exact ⟨_, hcs.symm⟩

theorem afterAttribute?_suffix {cs rest : Text} (h : afterAttribute? cs = some rest) :
    rest <:+ cs := by
  unfold afterAttribute? at h
  split at h
  · cases h
  · next named left _ hs =>
    have hleft : left <:+ cs := ⟨_, (spanWhile_spec hs).1.symm⟩
    split at h
    · next more hmore =>
      cases h
      have hvalue : more.dropWhile isSpace <:+ cs := by
        have hdrop := List.dropWhile_suffix isSpace (l := left)
        rw [hmore] at hdrop
        exact ((List.dropWhile_suffix _).trans (List.suffix_cons _ _)).trans (hdrop.trans hleft)
      cases hv : afterValue? (more.dropWhile isSpace) with
      | none => exact hleft
      | some after => exact (afterValue?_suffix hv).trans hvalue
    · cases h
      exact hleft

/-- Attributes go on to a closing bracket. -/
theorem afterAttributes?_eq {steps : Nat} {cs rest : Text}
    (h : afterAttributes? steps cs = some rest) : ∃ inside, cs = inside ++ '>' :: rest := by
  induction steps generalizing cs with
  | zero => cases h
  | succ steps ih =>
    obtain ⟨spaces, hcs⟩ := List.dropWhile_suffix isSpace (l := cs)
    unfold afterAttributes? at h
    split at h
    · next left hd =>
      cases h
      rw [hd] at hcs
      exact ⟨spaces, hcs.symm⟩
    · next left hd =>
      cases h
      rw [hd] at hcs
      exact ⟨spaces ++ ['/'], by rw [← hcs]; simp⟩
    · split at h
      · obtain ⟨behind, hb, hr⟩ := Option.bind_eq_some_iff.mp h
        obtain ⟨inside, hinside⟩ := ih hr
        obtain ⟨front, hfront⟩ := afterAttribute?_suffix hb
        refine ⟨spaces ++ (front ++ inside), ?_⟩
        rw [← hcs, ← hfront, hinside]
        simp only [List.append_assoc]
      · cases h

theorem readTagBody?_eq {cs body rest : Text} (h : readTagBody? cs = some (body, rest)) :
    ∃ inside, body = inside ++ ['>'] ∧ cs = body ++ rest := by
  unfold readTagBody? at h
  dsimp only at h
  have hnamed : (if cs.head? = some '/' then cs.drop 1 else cs) <:+ cs := by
    split
    · exact List.drop_suffix 1 cs
    · exact List.suffix_refl cs
  split at h
  · next c more hm =>
    rw [hm] at hnamed
    split at h
    · obtain ⟨left, hleft, heq⟩ := Option.map_eq_some_iff.mp h
      obtain ⟨hbody, rfl⟩ := Prod.mk.inj heq
      obtain ⟨inside, hinside⟩ := afterAttributes?_eq hleft
      have hbehind := ((spanWhile_suffix isTagNameChar more).trans (List.suffix_cons c more)).trans
        hnamed
      obtain ⟨front, hfront⟩ := hbehind
      have hcs : cs = front ++ inside ++ ['>'] ++ left := by
        rw [← hfront, hinside]
        simp only [List.append_assoc, List.singleton_append]
      refine ⟨front ++ inside, ?_, ?_⟩
      · rw [← hbody, hcs, List.length_append, Nat.add_sub_cancel, List.take_left]
      · rw [← hbody, hcs, List.length_append, Nat.add_sub_cancel, List.take_left]
    · cases h
  · cases h

theorem readHiddenBody?_eq {cs body rest : Text} (h : readHiddenBody? cs = some (body, rest)) :
    ∃ inside, body = inside ++ ['>'] ∧ cs = body ++ rest := by
  have hafter {opening : Text} (closing : Text) {read : Text → Option (Text × Text)}
      (hread : ∀ cs b r, read cs = some (b, r) →
        ∃ inside, b = inside ++ (closing ++ ['>']) ∧ cs = b ++ r)
      (hr : ((after? opening cs).bind read).map (fun r => (opening ++ r.1, r.2)) =
        some (body, rest)) : ∃ inside, body = inside ++ ['>'] ∧ cs = body ++ rest := by
    obtain ⟨⟨b, r⟩, hb, heq⟩ := Option.map_eq_some_iff.mp hr
    cases heq
    obtain ⟨left, hleft, hr⟩ := Option.bind_eq_some_iff.mp hb
    obtain ⟨inside, rfl, rfl⟩ := hread left b _ hr
    refine ⟨opening ++ inside ++ closing, ?_, ?_⟩
    · simp only [List.append_assoc]
    · rw [(after?_eq_some_iff _ _ _).mp hleft, List.append_assoc opening]
  obtain ⟨⟨opening, read⟩, hmem, hr⟩ := List.exists_of_findSome?_eq_some h
  rcases List.mem_cons.mp hmem with heq | hmem
  · cases heq
    exact hafter "--".toList (fun _ _ _ => readCommentBody?_eq) hr
  rcases List.mem_cons.mp hmem with heq | hmem
  · cases heq
    exact hafter "?".toList (fun _ _ _ => readThrough?_eq) hr
  · cases List.mem_singleton.mp hmem
    exact hafter "]]".toList (fun _ _ _ => readThrough?_eq) hr

theorem reads_markup (hs : shelf.Sound g) : Reads g (readMarkup shelf) := by
  intro before cs outcome h
  unfold readMarkup at h
  split at h
  · next inner =>
    refine ⟨⟨_, _, rfl, by decide⟩, ?_⟩
    obtain ⟨⟨body, rest⟩, hr, heq⟩ := Option.map_eq_some_iff.mp h
    cases heq
    have hbody : ∃ inside, body = inside ++ ['>'] ∧ inner = body ++ rest := by
      rcases Option.or_eq_some_iff.mp hr with hr | ⟨-, hr⟩
      · exact readTagBody?_eq hr
      · exact readHiddenBody?_eq hr
    obtain ⟨inside, rfl, rfl⟩ := hbody
    refine ⟨⟨'<' :: (inside ++ ['>']), rfl⟩, fun hc => hs.restore ?_⟩
    have hwhole : g.running ('<' :: inside ++ '>' :: rest) := by simpa using hc
    exact Grade.concat (Grade.cutBefore hwhole (by decide)) (by decide)
  · cases h

theorem readReferenceBody?_eq {cs body rest : Text}
    (h : readReferenceBody? cs = some (body, rest)) :
    cs = body ++ rest ∧ Mark.opening ∉ body := by
  have hopening {p : Char → Bool} {cs front : Text} {c : Char} {left : Text}
      (hs : spanWhile p cs = (front, c :: left)) (hp : p Mark.opening = false) :
      cs = front ++ c :: left ∧ Mark.opening ∉ front := by
    obtain ⟨hcs, hall, -⟩ := spanWhile_spec hs
    refine ⟨hcs, fun hm => ?_⟩
    rw [hall _ hm] at hp
    cases hp
  unfold readReferenceBody? at h
  split at h
  · split at h
    · next d ds left hs =>
      cases h
      obtain ⟨rfl, hm⟩ := hopening hs (by decide)
      refine ⟨by simp, ?_⟩
      simp only [List.mem_append, List.mem_cons, not_or] at hm ⊢
      exact ⟨⟨by decide, by decide, hm.1, hm.2⟩, by decide⟩
    · cases h
  · split at h
    · next d ds left hs =>
      cases h
      obtain ⟨rfl, hm⟩ := hopening hs (by decide)
      refine ⟨by simp, ?_⟩
      simp only [List.mem_append, List.mem_cons, not_or] at hm ⊢
      exact ⟨⟨by decide, hm.1, hm.2⟩, by decide⟩
    · cases h
  · split at h
    · next d ds left hs =>
      cases h
      obtain ⟨rfl, hm⟩ := hopening hs (by decide)
      refine ⟨by simp, ?_⟩
      rw [List.mem_append, not_or]
      exact ⟨hm, by decide⟩
    · cases h

theorem reads_characterReference (hs : shelf.Sound g) : Reads g (readCharacterReference shelf) := by
  intro before cs outcome h
  unfold readCharacterReference at h
  split at h
  · next inner =>
    refine ⟨⟨_, _, rfl, by decide⟩, ?_⟩
    obtain ⟨⟨body, rest⟩, hr, heq⟩ := Option.map_eq_some_iff.mp h
    cases heq
    obtain ⟨rfl, hbody⟩ := readReferenceBody?_eq hr
    exact ⟨⟨'&' :: body, rfl⟩, fun _ => hs.restore (Grade.cons (by decide) (g.free hbody))⟩
  · cases h

/-! ### Texts in brackets -/

theorem untilBracket_eq {depth : Nat} {cs inside rest : Text}
    (h : untilBracket depth cs = some (inside, rest)) : cs = inside ++ ']' :: rest := by
  induction cs generalizing depth inside with
  | nil => cases h
  | cons c cs ih =>
    have hlater {depth : Nat} (h : (untilBracket depth cs).map (fun r => (c :: r.1, r.2)) =
        some (inside, rest)) : c :: cs = inside ++ ']' :: rest := by
      obtain ⟨⟨i, r⟩, hr, heq⟩ := Option.map_eq_some_iff.mp h
      cases heq
      exact congrArg (c :: ·) (ih hr)
    unfold untilBracket at h
    split at h
    · next hc =>
      split at h
      · cases h
        exact congrArg (· :: _) hc
      · exact hlater h
    · split at h
      · exact hlater h
      · exact hlater h

/-- A text in brackets is of the grade of the text it is read from. -/
theorem running_untilBracket {depth : Nat} {cs inside rest : Text}
    (h : untilBracket depth cs = some (inside, rest)) :
    rest <:+ cs ∧ (g.running cs → g.running inside) := by
  rw [untilBracket_eq h]
  refine ⟨⟨inside ++ [']'], by rw [List.append_assoc, List.singleton_append]⟩, fun hc => ?_⟩
  exact Grade.cutBefore hc (by decide)

theorem readLinkText?_spec {before cs label rest : Text}
    (h : readLinkText? before cs = some (label, rest)) :
    (∃ c more, cs = c :: more ∧ Mark.isInner c = false) ∧ rest <:+ cs ∧
      (g.running cs → g.running label) := by
  unfold readLinkText? at h
  split at h
  · next inner =>
    split at h
    · cases h
    · obtain ⟨hrest, hlabel⟩ := running_untilBracket (g := g) h
      exact ⟨⟨_, _, rfl, by decide⟩, hrest.trans (List.suffix_cons _ _),
        fun hc => hlabel (g.suffix hc (List.suffix_cons _ _))⟩
  · cases h

theorem readImageText?_spec {cs label rest : Text} (h : readImageText? cs = some (label, rest)) :
    (∃ c more, cs = c :: more ∧ Mark.isInner c = false) ∧ rest <:+ cs ∧
      (g.running cs → g.running label) := by
  unfold readImageText? at h
  split at h
  · next inner =>
    have hinner : inner <:+ '!' :: '[' :: inner := ⟨['!', '['], rfl⟩
    obtain ⟨hrest, hlabel⟩ := running_untilBracket (g := g) h
    exact ⟨⟨_, _, rfl, by decide⟩, hrest.trans hinner, fun hc => hlabel (g.suffix hc hinner)⟩
  · cases h

/-! ### Addresses and titles in parentheses -/

/-- The address, the title and the rest are parts of a text. -/
structure Destination.Within (cs : Text) (d : Destination) : Prop where
  address : d.address <:+: cs
  title : ∀ t ∈ d.title, t <:+: cs
  rest : d.rest <:+ cs

theorem Destination.Within.suffix {cs ds : Text} {d : Destination} (h : d.Within ds)
    (hs : ds <:+ cs) : d.Within cs :=
  ⟨h.address.trans hs.isInfix, fun title hm => (h.title title hm).trans hs.isInfix,
    h.rest.trans hs⟩

theorem infix_slice (cs : Text) (start stop : Nat) : slice cs start stop <:+: cs :=
  (List.drop_suffix _ _).isInfix.trans (List.take_prefix _ _).isInfix

theorem within_close (s : LinkScan) {all rest : Text} (h : rest <:+ all) :
    (s.close all rest).Within all := by
  have hplain : Destination.Within all ⟨all.take s.index, none, rest⟩ :=
    ⟨(List.take_prefix _ _).isInfix, (fun title hm => nomatch hm), h⟩
  have htitled (t : QuoteTrack) (finish : Nat) : Destination.Within all
      ⟨slice all 0 (t.start - 1), some (slice all t.start (finish - 1)), rest⟩ := by
    refine ⟨infix_slice _ _ _, fun title hm => ?_, h⟩
    cases hm
    exact infix_slice _ _ _
  unfold LinkScan.close
  extract_lets titled plain ofSecond
  have hsecond : ofSecond.Within all := by
    unfold ofSecond
    split
    · split
      · split
        · exact htitled _ _
        · exact hplain
      · exact hplain
    · exact hplain
  split
  · split
    · split
      · exact htitled _ _
      · exact hsecond
    · exact hsecond
  · exact hsecond

theorem within_run {all : Text} (s : LinkScan) {cs : Text} (hs : cs <:+ all) {d : Destination}
    (h : LinkScan.run all s cs = some d) : d.Within all := by
  induction cs generalizing s with
  | nil =>
    unfold LinkScan.run at h
    split at h
    · split at h
      · cases h
        exact ⟨(List.take_prefix _ _).isInfix, (fun title hm => nomatch hm), List.drop_suffix _ _⟩
      · cases h
        exact ⟨(List.take_prefix _ _).isInfix, (fun title hm => nomatch hm), List.drop_suffix _ _⟩
    · cases h
  | cons c cs ih =>
    have hcs : cs <:+ all := (List.suffix_cons c cs).trans hs
    unfold LinkScan.run at h
    dsimp only at h
    split at h
    · cases h
      exact within_close _ hcs
    · exact ih _ hcs h

theorem infix_trim (cs : Text) : Text.trim cs <:+: cs :=
  (Line.prefix_dropEndWhile _ _).isInfix.trans (List.dropWhile_suffix _).isInfix

theorem readQuotedTitle?_spec {cs title rest : Text}
    (h : readQuotedTitle? cs = some (title, rest)) : title <:+: cs ∧ rest <:+ cs := by
  unfold readQuotedTitle? at h
  split at h
  · next c cs =>
    split at h
    · split at h
      · next t d left hs =>
        cases h
        obtain ⟨hcs, -, -⟩ := spanWhile_spec hs
        rw [hcs]
        exact ⟨⟨[c], d :: rest, rfl⟩, ⟨c :: (title ++ [d]), by simp⟩⟩
      · cases h
    · cases h
  · cases h

theorem within_readAngled? {cs : Text} {d : Destination} (h : readAngled? cs = some d) :
    d.Within cs := by
  unfold readAngled? at h
  split at h
  · next inner =>
    split at h
    · next address rest ha =>
      obtain ⟨hinner, -, -⟩ := spanWhile_spec ha
      have haddress : Text.trim address <:+: '<' :: inner :=
        (infix_trim address).trans ⟨['<'], '>' :: rest, by rw [hinner]; rfl⟩
      have hrest : Text.trimStart rest <:+ '<' :: inner :=
        (List.dropWhile_suffix _).trans ⟨'<' :: (address ++ ['>']), by rw [hinner]; simp⟩
      dsimp only at h
      split at h
      · next left hl =>
        cases h
        rw [hl] at hrest
        exact ⟨haddress, (fun title hm => nomatch hm), (List.suffix_cons _ _).trans hrest⟩
      · split at h
        · next title more hq =>
          obtain ⟨htitle, hmore⟩ := readQuotedTitle?_spec hq
          split at h
          · next left hl =>
            cases h
            have hleft : left <:+ more := by
              have hdrop := List.dropWhile_suffix isSpace (l := more)
              rw [show more.dropWhile isSpace = ')' :: left from hl] at hdrop
              exact (List.suffix_cons _ _).trans hdrop
            refine ⟨haddress, fun t hm => ?_, (hleft.trans hmore).trans hrest⟩
            cases hm
            exact htitle.trans hrest.isInfix
          · cases h
        · cases h
    · cases h
  · cases h

theorem within_readDestination? {cs : Text} {d : Destination} (h : readDestination? cs = some d) :
    d.Within cs := by
  unfold readDestination? at h
  split at h
  · next cs =>
    have hinner : Text.trimStart cs <:+ '(' :: cs :=
      (List.dropWhile_suffix _).trans (List.suffix_cons _ _)
    dsimp only at h
    split at h
    · next found hf =>
      cases h
      exact (within_readAngled? hf).suffix hinner
    · exact (within_run _ (List.suffix_refl _) h).suffix hinner
  · cases h

theorem infix_dequote (cs : Text) : dequote cs <:+: cs := by
  unfold dequote
  dsimp only
  split
  · exact (List.dropLast_prefix _).isInfix.trans (List.drop_suffix _ _).isInfix
  · exact List.infix_rfl

theorem value_cleanTitle (hs : shelf.Sound g) {title : Text} (h : g.value title) :
    g.value (cleanTitle shelf title) :=
  g.spaces (g.part (hs.value_plain (g.part h (infix_trim _))) (infix_dequote _))

theorem value_cleanAddress (hs : shelf.Sound g) {address : Text} (h : g.value address) :
    g.value (cleanAddress shelf address) :=
  g.part (hs.value_plain h) (infix_trim _)

/-! ### Links and images -/

theorem sound_refer {tag attr : String} (ht : tag ∈ documentTags) (ha : attr ∈ documentAttrs)
    {address : Text} (hv : g.value address) {title : Option Text}
    (hw : ∀ t ∈ title, g.value t) : Element.Sound g (refer tag attr address title) := by
  have hbare : Element.Sound g ((Element.bare tag : Draft).set attr address) :=
    (sound_bare ht).set ha hv
  unfold refer
  cases title with
  | none => exact hbare
  | some t => exact hbare.set (by decide) (hw t rfl)

theorem sound_linkDraft {label address : Text} {title : Option Text} (hl : g.running label)
    (hv : g.value address) (hw : ∀ t ∈ title, g.value t) :
    Element.Sound g (linkDraft label address title) :=
  (sound_refer (by decide) (by decide) hv hw).withText hl

theorem sound_imageDraft (hs : shelf.Sound g) {label address : Text} {title : Option Text}
    (hl : g.running label) (hv : g.value address) (hw : ∀ t ∈ title, g.value t) :
    Element.Sound g (imageDraft shelf label address title) :=
  (sound_refer (by decide) (by decide) hv hw).set (by decide)
    (g.value_of_running (hs.running_plain hl))

/-- The address and the title of a link as they are shown. -/
theorem value_destination (hs : shelf.Sound g) {cs : Text} {d : Destination} (h : d.Within cs)
    (hc : g.running cs) : g.value (cleanAddress shelf d.address) ∧
      ∀ t ∈ d.title.map (cleanTitle shelf), g.value t := by
  have hv := g.value_of_running hc
  refine ⟨value_cleanAddress hs (g.part hv h.address), fun t ht => ?_⟩
  obtain ⟨title, hm, rfl⟩ := Option.map_eq_some_iff.mp ht
  exact value_cleanTitle hs (g.part hv (h.title title hm))

theorem reads_link (hs : shelf.Sound g) : Reads g (readLink shelf) := by
  intro before cs outcome h
  unfold readLink at h
  split at h
  · next after =>
    split at h
    · cases h
    split at h
    · next label rest hl =>
      obtain ⟨hrest, hlabel⟩ := running_untilBracket (g := g) hl
      split at h
      · next d hd =>
        cases h
        have hwithin := (within_readDestination? hd).suffix (hrest.trans (List.suffix_cons '[' after))
        refine ⟨⟨_, _, rfl, by decide⟩, hwithin.rest, fun hc => ?_⟩
        obtain ⟨hv, hw⟩ := value_destination hs hwithin hc
        exact sound_linkDraft (hlabel (g.suffix hc (List.suffix_cons _ _))) hv hw
      · cases h
    · cases h
  · cases h

theorem reads_image (hs : shelf.Sound g) : Reads g (readImage shelf) := by
  intro before cs outcome h
  unfold readImage at h
  split at h
  · next label rest hl =>
    obtain ⟨hhead, hrest, hlabel⟩ := readImageText?_spec (g := g) hl
    split at h
    · next d hd =>
      cases h
      have hwithin := (within_readDestination? hd).suffix hrest
      refine ⟨hhead, hwithin.rest, fun hc => ?_⟩
      obtain ⟨hv, hw⟩ := value_destination hs hwithin hc
      exact sound_imageDraft hs (hlabel hc) hv hw
    · cases h
  · cases h

theorem readName?_suffix {label rest name left : Text}
    (h : readName? label rest = some (name, left)) : left <:+ rest := by
  unfold readName? at h
  dsimp only at h
  split at h
  · next cs hcs =>
    have hinner : cs <:+ rest := by
      split at hcs
      · cases hcs
        exact List.suffix_cons _ _
      · split at hcs
        · cases hcs
          exact ⟨[_, _], rfl⟩
        · cases hcs
      · cases hcs
    split at h
    · next n d l hs =>
      cases h
      have hspan := spanWhile_suffix (· != ']') cs
      rw [hs] at hspan
      exact ((List.suffix_cons _ _).trans hspan).trans hinner
    · cases h
  · cases h

theorem sound_resolve {references : References} (hr : References.Sound g references)
    (name : Text) {left cs : Text} (hleft : left <:+ cs) {make : Text → Option Text → Draft}
    (hm : g.running cs → ∀ address title, g.value address → (∀ t ∈ title, g.value t) →
      Element.Sound g (make address title)) :
    (resolve references name left make).Sound g cs := by
  unfold resolve
  split
  · next address title hf =>
    obtain ⟨r, hfind, heq⟩ := Option.map_eq_some_iff.mp hf
    obtain ⟨hv, hw⟩ := hr r (List.mem_of_find?_eq_some hfind)
    rw [heq] at hv hw
    exact ⟨hleft, fun hc => hm hc address title hv hw⟩
  · exact hleft

theorem reads_reference {references : References} (hr : References.Sound g references)
    (short : Bool) : Reads g (readReference references short) := by
  intro before cs outcome h
  unfold readReference at h
  split at h
  · next label rest hl =>
    obtain ⟨hhead, hrest, hlabel⟩ := readLinkText?_spec (g := g) hl
    split at h
    · next name left hn =>
      cases h
      have hleft : left <:+ cs := by
        split at hn
        · cases hn
          exact hrest
        · exact (readName?_suffix hn).trans hrest
      exact ⟨hhead, sound_resolve hr name hleft fun hc address title hv hw =>
        sound_linkDraft (hlabel hc) hv hw⟩
    · cases h
  · cases h

theorem reads_imageReference {references : References} (hr : References.Sound g references)
    (hs : shelf.Sound g) (short : Bool) :
    Reads g (readImageReference references shelf short) := by
  intro before cs outcome h
  unfold readImageReference at h
  split at h
  · next label rest hl =>
    obtain ⟨hhead, hrest, hlabel⟩ := readImageText?_spec (g := g) hl
    split at h
    · next name left hn =>
      cases h
      have hleft : left <:+ cs := by
        split at hn
        · cases hn
          exact hrest
        · exact (readName?_suffix hn).trans hrest
      exact ⟨hhead, sound_resolve hr name hleft fun hc address title hv hw =>
        sound_imageDraft hs (hlabel hc) hv hw⟩
    · cases h
  · cases h

/-- Every reader takes effect outside marks only, and makes what is sound. -/
theorem reads_readers {references : References} (hr : References.Sound g references)
    (hs : shelf.Sound g) (read : Reader) (h : read ∈ readers references shelf) : Reads g read := by
  simp only [readers, List.mem_cons, List.not_mem_nil, or_false] at h
  rcases h with rfl | rfl | rfl | rfl | rfl | rfl | rfl | rfl | rfl | rfl | rfl | rfl | rfl | rfl
  · exact reads_code
  · exact reads_escape
  · exact reads_reference hr false
  · exact reads_link hs
  · exact reads_image hs
  · exact reads_imageReference hr hs false
  · exact reads_reference hr true
  · exact reads_imageReference hr hs true
  · exact reads_webAddress hs
  · exact reads_mailAddress shelf
  · exact reads_break
  · exact reads_markup hs
  · exact reads_characterReference hs
  · exact reads_loneMarks

end Changelog.Span
