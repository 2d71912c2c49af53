import Changelog.Proofs.Files.Lasting
import Changelog.Proofs.Text.Cuts

/-!
# The paths of places

A place whose names are plain has a path, and the path leads back to the place wherever directories
lead to it.  Operations on such paths are refused only for what is or is not at the place.
-/

namespace Changelog

/-- A name that stands for itself in a path. -/
structure Path.Plain (name : Text) : Prop where
  nonempty : name ≠ []
  slash : '/' ∉ name
  nul : '\x00' ∉ name
  here : name ≠ Path.here
  above : name ≠ Path.above

/-- The path of a place. -/
def Path.ofPlace (place : Place) : Text :=
  Path.ofNames ['/'] place

namespace Path

variable {place : Place} {name : Text}

theorem names_ofPlace (h : ∀ name ∈ place, Plain name) : names (ofPlace place) = place := by
  have hjoin : names (Text.joinWith ['/'] place) = place := by
    induction place with
    | nil => rfl
    | cons name place ih =>
      obtain ⟨hname, hplace⟩ := List.forall_mem_cons.mp h
      have hown := names_plain name hname.slash hname.nonempty
      cases place with
      | nil => exact hown
      | cons next place =>
        rw [Text.joinWith_cons_cons, List.append_assoc, List.singleton_append, names_append, hown,
          ih hplace]
        rfl
  exact (names_append [] _).trans hjoin

theorem ofPlace_concat (name : Text) {place : Place} (h : place ≠ []) :
    ofPlace (place ++ [name]) = ofPlace place ++ '/' :: name := by
  obtain ⟨first, others, rfl⟩ := List.exists_cons_of_ne_nil h
  show ['/'] ++ Text.joinWith ['/'] (first :: (others ++ [name])) = _
  rw [Text.joinWith_concat, List.append_assoc, ← List.append_assoc]
  rfl

theorem endsWithSlash_append {name : Text} (h : Plain name) (front : Text) :
    endsWithSlash (front ++ name) = false := by
  rcases List.eq_nil_or_concat name with hn | ⟨before, c, hn⟩
  · exact absurd hn h.nonempty
  · have hc : c ≠ '/' := by
      intro he
      refine h.slash ?_
      rw [hn, he, List.concat_eq_append]
      exact List.mem_append_right _ (List.mem_singleton_self _)
    rw [endsWithSlash, Text.last?, hn, List.concat_eq_append, ← List.append_assoc,
      List.getLast?_concat]
    simpa using hc

theorem endsWithSlash_ofPlace (h : Plain name) (place : Place) :
    endsWithSlash (ofPlace (place ++ [name])) = false := by
  cases place with
  | nil => exact endsWithSlash_append h ['/']
  | cons first others =>
    rw [ofPlace_concat name (List.cons_ne_nil first others), List.append_cons]
    exact endsWithSlash_append h _

/-- A name in the directory of a place. -/
theorem inside_ofPlace {last : Text} (h : Plain last) (place : Place) (name : Text) :
    inside (ofPlace (place ++ [last])) name = ofPlace (place ++ [last, name]) := by
  have hsplit : place ++ [last, name] = (place ++ [last]) ++ [name] := by
    rw [List.append_assoc]
    rfl
  rw [inside, endsWithSlash_ofPlace h, hsplit,
    ofPlace_concat name (by simp)]
  rfl

theorem nul_not_mem_ofPlace (h : ∀ name ∈ place, Plain name) : '\x00' ∉ ofPlace place := by
  intro hm
  rcases List.mem_cons.mp hm with hm | hm
  · revert hm
    decide
  · rcases Text.mem_joinWith hm with hm | ⟨name, hn, hm⟩
    · revert hm
      decide
    · exact (h name hn).nul hm

/-! ### Full forms -/

/-- The full form of a path that begins with the path of a place has one slash in front. -/
theorem rootOf_ofPlace (h : ∀ name ∈ place, Plain name) (hp : place ≠ []) (more : Text) :
    rootOf (ofPlace place ++ more) = ['/'] := by
  obtain ⟨first, others, rfl⟩ := List.exists_cons_of_ne_nil hp
  obtain ⟨hfirst, -⟩ := List.forall_mem_cons.mp h
  obtain ⟨tail, htail⟩ : ∃ tail, Text.joinWith ['/'] (first :: others) = first ++ tail := by
    cases others with
    | nil => exact ⟨[], (List.append_nil first).symm⟩
    | cons next others =>
      rw [Text.joinWith_cons_cons, List.append_assoc]
      exact ⟨_, rfl⟩
  obtain ⟨c, cs, rfl⟩ := List.exists_cons_of_ne_nil hfirst.nonempty
  have hc : c ≠ '/' := fun he => hfirst.slash (he ▸ List.mem_cons_self)
  show rootOf ('/' :: (Text.joinWith ['/'] ((c :: cs) :: others) ++ more)) = ['/']
  rw [htail]
  unfold rootOf
  split
  · next he => exact absurd (List.cons.inj (List.cons.inj he).2).1 hc
  · next he => exact absurd (List.cons.inj (List.cons.inj he).2).1 hc
  · rfl

theorem resolveNames_append (h : ∀ name ∈ place, Plain name) (done more : List Text) :
    resolveNames done (place ++ more) = resolveNames (place.reverse ++ done) more := by
  induction place generalizing done with
  | nil => rfl
  | cons name place ih =>
    obtain ⟨hname, hplace⟩ := List.forall_mem_cons.mp h
    rw [List.cons_append, resolveNames, if_neg hname.here, if_neg hname.above, ih hplace,
      List.reverse_cons, List.append_assoc]
    rfl

/-- A name in the directory above that of a place. -/
theorem full_beside {last : Text} (h : ∀ name ∈ place ++ [last], Plain name)
    (hn : Plain name) :
    full (ofPlace (place ++ [last])) ("../".toList ++ name) = ofPlace (place ++ [name]) := by
  have hslash := endsWithSlash_ofPlace (h last (List.mem_append_right _ List.mem_cons_self)) place
  have hplaced : placed (ofPlace (place ++ [last])) ("../".toList ++ name) =
      ofPlace (place ++ [last]) ++ '/' :: ("../".toList ++ name) := by
    rw [placed, hslash]
    rfl
  have hnames : names ("../".toList ++ name) = [above, name] := by
    have hsplit := names_append above name
    rw [names_plain name hn.slash hn.nonempty] at hsplit
    exact hsplit
  have hfull : fullNames (ofPlace (place ++ [last])) ("../".toList ++ name) = place ++ [name] := by
    rw [fullNames, hplaced, names_append, names_ofPlace h, hnames, resolveNames_append h,
      List.append_nil, List.reverse_append, resolveNames, if_neg (by decide), if_pos rfl,
      resolveNames, if_neg hn.here, if_neg hn.above]
    show (name :: place.reverse).reverse = _
    rw [List.reverse_cons, List.reverse_reverse]
  rw [full, hfull, hplaced, rootOf_ofPlace h (by simp)]
  rfl

/-- The directory of the path of a place is that of the place. -/
theorem directory_ofPlace (h : ∀ other ∈ place ++ [name], Plain other) (working : Text) :
    directory working (ofPlace (place ++ [name])) = ofPlace place := by
  have hplaced : placed working (ofPlace (place ++ [name])) = ofPlace (place ++ [name]) := rfl
  have hfull : fullNames working (ofPlace (place ++ [name])) = place ++ [name] := by
    have hresolve := resolveNames_append h [] []
    rw [List.append_nil, List.append_nil] at hresolve
    rw [fullNames, hplaced, names_ofPlace h, hresolve]
    exact List.reverse_reverse _
  have hroot := rootOf_ofPlace h (by simp) []
  rw [List.append_nil] at hroot
  rw [directory, hfull, hplaced, hroot, List.dropLast_concat]
  rfl

end Path

namespace FileSystem

variable {fs now : FileSystem} {parent place : Place} {name : Text}

/-- Directories lead to a place, which is one of them, under plain names that are short enough. -/
structure Reaches (fs : FileSystem) (place : Place) : Prop where
  plain : ∀ name ∈ place, Path.Plain name
  short : ∀ name ∈ place, exceeds nameLimit name = false
  directory : ∀ front, front <+: place → fs.isDirectory front = true

theorem Reaches.front {more : Place} (h : fs.Reaches (place ++ more)) : fs.Reaches place :=
  ⟨fun name hn => h.plain name (List.mem_append_left _ hn),
    fun name hn => h.short name (List.mem_append_left _ hn),
    fun front hf => h.directory front (hf.trans (List.prefix_append place more))⟩

theorem reaches_nil (fs : FileSystem) : fs.Reaches [] :=
  ⟨nofun, nofun, fun front hf => by rw [List.prefix_nil.mp hf]; rfl⟩

theorem Reaches.below (h : fs.Reaches place) (hn : Path.Plain name)
    (hs : exceeds nameLimit name = false) (hd : fs.isDirectory (place ++ [name]) = true) :
    fs.Reaches (place ++ [name]) := by
  refine ⟨fun other ho => ?_, fun other ho => ?_, fun front hf => ?_⟩
  · rcases List.mem_append.mp ho with ho | ho
    · exact h.plain other ho
    · rw [List.mem_singleton.mp ho]
      exact hn
  · rcases List.mem_append.mp ho with ho | ho
    · exact h.short other ho
    · rw [List.mem_singleton.mp ho]
      exact hs
  · rcases List.prefix_concat_iff.mp hf with rfl | hf
    · exact hd
    · exact h.directory front hf

theorem Reaches.walk (h : fs.Reaches place) : fs.walk [] place = .ok place := by
  have hfrom (names front : List Text) (hplace : front ++ names = place) :
      fs.walk front names = .ok place := by
    induction names generalizing front with
    | nil =>
      rw [List.append_nil] at hplace
      rw [hplace]
      rfl
    | cons name names ih =>
      have hname : name ∈ place := by
        rw [← hplace]
        exact List.mem_append_right _ List.mem_cons_self
      have hnext : (front ++ [name]) ++ names = place := by
        rw [← hplace, List.append_assoc, List.singleton_append]
      have hfront := h.directory front ⟨name :: names, hplace⟩
      have hchild := get?_of_isDirectory (h.directory (front ++ [name]) ⟨names, hnext⟩)
      rw [FileSystem.walk, hfront, if_neg (h.plain name hname).here,
        if_neg (h.plain name hname).above, h.short name hname, hchild]
      exact ih (front ++ [name]) hnext
  exact hfrom place [] rfl

/-- A path that is short enough. -/
def Fits (place : Place) : Prop :=
  exceeds pathLimit (Path.ofPlace place) = false

theorem acceptPath_ofPlace (h : Fits place) : acceptPath (Path.ofPlace place) = .ok () := by
  unfold acceptPath
  rw [h]
  rfl

theorem names_child (h : fs.Reaches parent) (hn : Path.Plain name) :
    Path.names (Path.ofPlace (parent ++ [name])) = parent ++ [name] := by
  refine Path.names_ofPlace fun other ho => ?_
  rcases List.mem_append.mp ho with ho | ho
  · exact h.plain other ho
  · rw [List.mem_singleton.mp ho]
    exact hn

/-- The name of a path is looked up in the directory. -/
theorem Reaches.locate (h : fs.Reaches parent) (hn : Path.Plain name)
    (hf : Fits (parent ++ [name])) :
    fs.locate (Path.ofPlace (parent ++ [name])) = .ok (parent, some name) := by
  have hnames := names_child h hn
  refine locate_of_walk (acceptPath_ofPlace hf) ?_ (h.directory parent (List.prefix_refl _)) ?_
    hn.here hn.above
  · rw [hnames, List.dropLast_concat]
    exact h.walk
  · rw [hnames, List.getLast?_concat]

theorem child_eq (h : exceeds nameLimit name = false) (parent : Place) :
    child parent name = .ok (parent ++ [name]) := by
  unfold child
  rw [h]
  rfl

/-- What is read at the path of a file or of nothing. -/
theorem Reaches.read (h : fs.Reaches parent) (hn : Path.Plain name)
    (hs : exceeds nameLimit name = false) (hf : Fits (parent ++ [name])) :
    fs.read (Path.ofPlace (parent ++ [name])) =
      match fs.get? (parent ++ [name]) with
      | some (.file _ content) => .ok content
      | some .directory => .error .isDirectory
      | none => .error .missing := by
  have hparent := h.directory parent (List.prefix_refl _)
  unfold FileSystem.read resolve
  rw [acceptPath_ofPlace hf, names_child h hn, walk_append]
  show ((((fs.walk [] parent).bind fun p => fs.walk p [name]) >>= fun place =>
    if Path.endsWithSlash (Path.ofPlace (parent ++ [name])) && !fs.isDirectory place then
      Except.error Refusal.notDirectory else Except.ok place) >>= fun place => _) = _
  rw [h.walk, Path.endsWithSlash_ofPlace hn]
  show ((fs.walk parent [name] >>= fun place => Except.ok place) >>= fun place => _) = _
  rw [FileSystem.walk, hparent, if_neg hn.here, if_neg hn.above, hs]
  cases hget : fs.get? (parent ++ [name]) with
  | none => rfl
  | some node =>
    show (match fs.get? (parent ++ [name]) with
      | some (.file _ content) => Except.ok content
      | some .directory => Except.error Refusal.isDirectory
      | none => Except.error Refusal.missing) = _
    rw [hget]

theorem Reaches.aligned (h : fs.Reaches place) (ha : fs.Aligned now) : now.Reaches place :=
  ⟨h.plain, h.short, fun front hf => (ha.directory front).trans (h.directory front hf)⟩

/-- A file is made where nothing is, and only there. -/
theorem Reaches.create (h : fs.Reaches parent) (hn : Path.Plain name)
    (hs : exceeds nameLimit name = false) (hf : Fits (parent ++ [name])) :
    fs.create (Path.ofPlace (parent ++ [name])) =
      if (fs.get? (parent ++ [name])).isSome then .error .taken
      else .ok (parent ++ [name], fs.put (parent ++ [name]) (.file 0o600 [])) := by
  unfold FileSystem.create
  rw [h.locate hn hf]
  show (child parent name >>= fun place => _) = _
  rw [child_eq hs]
  rfl

theorem fill_file {mode : Nat} {old : List UInt8} (h : fs.get? place = some (.file mode old))
    (content : List UInt8) : fs.fill place content = .ok (fs.put place (.file mode content)) := by
  unfold fill
  rw [h]

theorem setMode_file {mode : Nat} {content : List UInt8}
    (h : fs.get? place = some (.file mode content)) (next : Nat) :
    fs.setMode place next = .ok (fs.put place (.file next content)) := by
  unfold setMode
  rw [h]

/-- A file is moved to a path where no directory is. -/
theorem Reaches.move (h : fs.Reaches parent) (hn : Path.Plain name)
    (hs : exceeds nameLimit name = false) (hf : Fits (parent ++ [name])) {node : Node}
    (hnode : fs.get? place = some node) (hd : fs.isDirectory (parent ++ [name]) = false) :
    fs.move place (Path.ofPlace (parent ++ [name])) =
      .ok ((fs.erase place).put (parent ++ [name]) node) := by
  unfold FileSystem.move
  rw [h.locate hn hf]
  dsimp only [bind, Except.bind]
  rw [child_eq hs, hnode]
  dsimp only
  rw [Path.endsWithSlash_ofPlace hn, hd]
  rfl

end FileSystem

end Changelog
