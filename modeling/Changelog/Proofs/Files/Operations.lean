import Changelog.Proofs.Files.Walking

/-!
# Operations on files

What each operation does when it is not refused: one place becomes something else, and all other
places stay as they are.
-/

namespace Changelog.FileSystem

variable {fs now : FileSystem} {place parent : Place} {path name : Text} {node : Node}

/-! ### Names in directories -/

theorem bind_ok {α β : Type} {x : Except Refusal α} {f : α → Except Refusal β} {b : β}
    (h : (x >>= f) = .ok b) : ∃ a, x = .ok a ∧ f a = .ok b := by
  cases x with
  | error refusal => cases h
  | ok a => exact ⟨a, rfl, h⟩

/-- A name of a path is looked up in a directory that exists. -/
theorem locate_ok (h : fs.locate path = .ok (parent, some name)) :
    acceptPath path = .ok () ∧
      fs.walk (fs.start path) (Path.names path).dropLast = .ok parent ∧
      fs.isDirectory parent = true ∧ (Path.names path).getLast? = some name ∧
      name ≠ Path.here ∧ name ≠ Path.above := by
  unfold locate at h
  obtain ⟨⟨⟩, haccept, h⟩ := bind_ok h
  obtain ⟨found, hwalk, h⟩ := bind_ok h
  cases hd : fs.isDirectory found with
  | false =>
    rw [hd] at h
    cases h
  | true =>
    rw [hd] at h
    simp only [Bool.not_true, Bool.false_eq_true, if_false] at h
    split at h
    · cases h
    · next last hlast =>
      split at h
      · cases h
      · next hs =>
        cases h
        rw [not_or] at hs
        exact ⟨haccept, hwalk, hd, hlast, hs.1, hs.2⟩

theorem child_ok (h : child parent name = .ok place) :
    exceeds nameLimit name = false ∧ place = parent ++ [name] := by
  unfold child at h
  split at h
  · cases h
  · next he =>
    cases h
    exact ⟨Bool.eq_false_iff.mpr he, rfl⟩

/-- A path leads to what was put under its last name. -/
theorem resolve_of_locate (h : fs.locate path = .ok (parent, some name))
    (hname : exceeds nameLimit name = false) (hslash : Path.endsWithSlash path = false)
    (hw : now.working = fs.working)
    (hd : ∀ p, fs.isDirectory p = true → now.isDirectory p = true)
    (hnode : now.get? (parent ++ [name]) = some node) :
    now.resolve path = .ok (parent ++ [name]) := by
  obtain ⟨haccept, hwalk, hparent, hlast, hhere, habove⟩ := locate_ok h
  have hnames : Path.names path = (Path.names path).dropLast ++ [name] := by
    obtain ⟨front, hfront⟩ := List.getLast?_eq_some_iff.mp hlast
    rw [hfront, List.dropLast_concat]
  have hto : now.walk (now.start path) (Path.names path).dropLast = .ok parent := by
    rw [start_eq hw]
    exact walk_mono hd _ _ _ hwalk hparent
  have hstep : now.walk parent [name] = .ok (parent ++ [name]) := by
    rw [walk, hd parent hparent, if_neg hhere, if_neg habove, hname, hnode]
    rfl
  unfold resolve
  rw [haccept, hnames, walk_append, hto, hslash]
  show (now.walk parent [name] >>= fun place => _) = _
  rw [hstep]
  rfl

theorem exceeds_append {limit : Nat} {cs : Text} (ds : Text)
    (h : exceeds limit (cs ++ ds) = false) : exceeds limit cs = false := by
  unfold exceeds Utf8.encode at h ⊢
  rw [List.flatMap_append, List.length_append] at h
  rw [decide_eq_false_iff_not] at h ⊢
  omega

/-- The directory of a path that can be looked up is a directory that exists. -/
theorem resolve_of_inside {directory last : Text} (hp : '/' ∉ name) (hn : name ≠ [])
    (hd : directory ≠ []) (h : fs.locate (Path.inside directory name) = .ok (parent, some last)) :
    fs.resolve directory = .ok parent ∧ fs.isDirectory parent = true ∧ last = name := by
  obtain ⟨haccept, hwalk, hparent, hlast, -, -⟩ := locate_ok h
  obtain ⟨more, hmore⟩ : ∃ more, Path.inside directory name = directory ++ more := by
    unfold Path.inside
    split
    · exact ⟨_, rfl⟩
    · exact ⟨_, rfl⟩
  have hstart : fs.start (Path.inside directory name) = fs.start directory := by
    rw [hmore, start, start, Path.isRooted, Path.isRooted, List.head?_append,
      Option.or_of_isSome (List.isSome_head?.mpr hd)]
  have hdirectory : acceptPath directory = .ok () := by
    unfold acceptPath at haccept ⊢
    rw [hmore] at haccept
    split at haccept
    · cases haccept
    split at haccept
    · cases haccept
    · next hl =>
      rw [if_neg hd, exceeds_append more (Bool.eq_false_iff.mpr hl)]
      rfl
  rw [Path.names_inside directory name hp hn, List.dropLast_concat, hstart] at hwalk
  rw [Path.names_inside directory name hp hn, List.getLast?_concat] at hlast
  refine ⟨?_, hparent, (Option.some.inj hlast).symm⟩
  unfold resolve
  rw [hdirectory, hwalk]
  show (if Path.endsWithSlash directory && !fs.isDirectory parent then
    Except.error Refusal.notDirectory else Except.ok parent) = _
  rw [hparent, Bool.not_true, Bool.and_false]
  rfl

/-! ### What operations leave -/

/-- A file that is made is empty and new, and the last name of its path. -/
theorem create_ok (h : fs.create path = .ok (place, now)) :
    ∃ parent name, fs.locate path = .ok (parent, some name) ∧ place = parent ++ [name] ∧
      fs.get? place = none ∧ fs.Becomes place (some (.file 0o600 [])) now := by
  unfold create at h
  obtain ⟨⟨parent, last⟩, hl, h⟩ := bind_ok h
  cases last with
  | none => cases h
  | some name =>
    obtain ⟨goal, hc, h⟩ := bind_ok h
    split at h
    · cases h
    · next hfree =>
      cases h
      obtain ⟨-, rfl⟩ := child_ok hc
      refine ⟨parent, name, hl, rfl, Option.not_isSome_iff_eq_none.mp hfree, ?_⟩
      exact becomes_put fs _ _ (List.append_ne_nil_of_right_ne_nil parent (by simp))

/-- The file at a place is there to be filled. -/
theorem fill_ok {content : List UInt8} (h : fs.fill place content = .ok now) :
    ∃ mode old, fs.get? place = some (.file mode old) ∧
      fs.Becomes place (some (.file mode content)) now := by
  unfold fill at h
  split at h
  · next mode old hget =>
    cases h
    exact ⟨mode, old, hget, becomes_put fs _ _ (ne_nil_of_get? hget (by simp))⟩
  · cases h
  · cases h

theorem setMode_ok {mode : Nat} (h : fs.setMode place mode = .ok now) :
    ∃ old content, fs.get? place = some (.file old content) ∧
      fs.Becomes place (some (.file mode content)) now := by
  unfold setMode at h
  split at h
  · next old content hget =>
    cases h
    exact ⟨old, content, hget, becomes_put fs _ _ (ne_nil_of_get? hget (by simp))⟩
  · cases h
  · cases h

theorem eraseFile_ok (h : fs.eraseFile place = .ok now) : fs.Becomes place none now := by
  unfold eraseFile at h
  split at h
  · next mode content hget =>
    cases h
    exact becomes_erase fs _ (ne_nil_of_get? hget (by simp))
  · cases h
  · cases h

/-- What is moved was at its place, and its goal is looked up in a directory and is none. -/
theorem move_found (h : fs.move place path = .ok now) :
    ∃ parent name node, fs.locate path = .ok (parent, some name) ∧
      exceeds nameLimit name = false ∧ Path.endsWithSlash path = false ∧
      fs.isDirectory (parent ++ [name]) = false ∧ fs.get? place = some node ∧
      now = (fs.erase place).put (parent ++ [name]) node := by
  unfold move at h
  obtain ⟨⟨parent, last⟩, hl, h⟩ := bind_ok h
  cases last with
  | none => cases h
  | some name =>
    obtain ⟨goal, hc, h⟩ := bind_ok h
    split at h
    · cases h
    next node hnode =>
    split at h
    · cases h
    next hslash =>
    split at h
    · cases h
    next hdir =>
    cases h
    obtain ⟨hname, rfl⟩ := child_ok hc
    exact ⟨parent, name, node, hl, hname, Bool.eq_false_iff.mpr hslash,
      Bool.eq_false_iff.mpr hdir, hnode, rfl⟩

/-- A file that is moved is gone from its place, and is what the path leads to afterwards. -/
theorem move_ok {mode : Nat} {content : List UInt8}
    (hfile : fs.get? place = some (.file mode content)) (h : fs.move place path = .ok now) :
    ∃ goal, now.resolve path = .ok goal ∧ fs.isDirectory goal = false ∧
      ∃ mid, fs.Becomes place none mid ∧
        mid.Becomes goal (some (.file mode content)) now := by
  obtain ⟨parent, name, node, hl, hname, hslash, hdir, hnode, rfl⟩ := move_found h
  rw [hfile] at hnode
  cases hnode
  have hgone := becomes_erase fs place (ne_nil_of_get? hfile (by simp))
  have hput := becomes_put (fs.erase place) (parent ++ [name]) (.file mode content)
    (List.append_ne_nil_of_right_ne_nil parent (by simp))
  refine ⟨parent ++ [name], ?_, hdir, fs.erase place, hgone, hput⟩
  refine resolve_of_locate hl hname hslash rfl ?_ hput.there
  -- Neither place is a directory, so the walk to the goal goes through neither.
  intro p hp
  have hpp : p ≠ place := by
    intro he
    rw [he, isDirectory, hfile] at hp
    cases hp
  have hpg : p ≠ parent ++ [name] := by
    intro he
    rw [he, hdir] at hp
    cases hp
  rw [isDirectory, hput.apart p hpg, hgone.apart p hpp]
  exact hp

end Changelog.FileSystem
