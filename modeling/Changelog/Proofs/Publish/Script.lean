import Changelog.Proofs.Marks.Headings
import Changelog.Proofs.Publish.Quiet
import Changelog.Proofs.Text.Bytes

/-!
# What the script leaves

The script prints what it did.  For every content of the changelog the page is written and success
goes to the standard output, or nothing is written and the failure goes to the standard error: there
is no changelog, or its bytes are no text, or a heading holds a number with too many digits.
-/

namespace Changelog

open FileSystem

/-! ### Lines -/

theorem Console.text_lines (message : Text) :
    Console.text (Text.lines message) = message ++ ['\n'] := by
  unfold Text.lines Console.text
  induction message with
  | nil => rfl
  | cons c cs ih =>
    unfold Text.splitChar
    split
    · next hc => rw [List.flatMap_cons, ih, hc, List.nil_append, List.cons_append, List.cons_append,
        List.nil_append]
    · split
      · next hs =>
        rw [hs] at ih
        cases cs with
        | nil => cases ih
        | cons d cs => cases ih
      · next piece pieces hs =>
        rw [hs, List.flatMap_cons] at ih
        rw [List.flatMap_cons, List.cons_append, List.cons_append, ih, List.cons_append]

theorem Console.text_cons (line : Text) (lines : List Text) :
    Console.text (line :: lines) = (line ++ ['\n']) ++ Console.text lines :=
  rfl

theorem Console.text_append (front rest : List Text) :
    Console.text (front ++ rest) = Console.text front ++ Console.text rest :=
  List.flatMap_append

theorem Console.recordLines_written (target : Text) :
    Console.text (Console.recordLines (.written target)) =
      "Changelog HTML written to ".toList ++ target ++ ['\n'] := by
  unfold Console.recordLines Record.written
  rw [Console.text_append, Console.text_lines]
  exact List.append_nil _

theorem Console.recordLines_failed (source : Text) (cause : Failure) :
    Console.text (Console.recordLines (.failed source cause)) =
      "Failed to generate changelog HTML from ".toList ++ source ++ ['\n'] ++
        ("Traceback (most recent call last):".toList ++ ['\n']) ++ (cause.line ++ ['\n']) := by
  unfold Console.recordLines Record.failed
  dsimp only
  rw [Console.text_append, Console.text_lines, Console.text_cons, Console.text_lines,
    List.append_assoc _ (_ ++ _)]

namespace Text

theorem break_not_mem_decimal (n : Nat) : '\n' ∉ decimal n := by
  intro hm
  have hdigit := isAsciiDigit_of_mem_decimal hm
  revert hdigit
  decide

theorem break_not_mem_hex (n : Nat) : '\n' ∉ Nat.toDigits 16 n := by
  have hdigit : ∀ d < 16, '\n' ≠ Nat.digitChar d := by decide
  induction n using Nat.strongRecOn with
  | ind n ih =>
    rw [Nat.toDigits_eq_if (by decide)]
    split
    · next hn => exact fun hm => hdigit n hn (List.mem_singleton.mp hm)
    · next hn =>
      rw [List.mem_append, not_or]
      exact ⟨ih (n / 16) (by omega), fun hm =>
        hdigit (n % 16) (Nat.mod_lt n (by decide)) (List.mem_singleton.mp hm)⟩

theorem break_not_mem_hexPadded (width n : Nat) : '\n' ∉ hexPadded width n := by
  unfold hexPadded
  rw [List.mem_append, not_or]
  exact ⟨fun hm => absurd (List.eq_of_mem_replicate hm) (by decide), break_not_mem_hex n⟩

/-- A quoted text is one line. -/
theorem break_not_mem_quoted (cs : Text) : '\n' ∉ quoted cs := by
  have hmark : '\n' ≠ quoteMark cs := by
    unfold quoteMark
    split
    · decide
    · decide
  have hchar (c : Char) : '\n' ∉ quoteChar (quoteMark cs) c := by
    unfold quoteChar
    split
    · next hc =>
      have hne : '\n' ≠ c := by
        rcases Bool.or_eq_true_iff.mp hc with hc | hc
        · rw [of_decide_eq_true hc]
          exact hmark
        · rw [of_decide_eq_true hc]
          decide
      exact fun hm => hne (by simpa using hm)
    split
    · decide
    split
    · decide
    split
    · decide
    · next hbreak _ _ =>
      have hhex (letter : Char) (hl : '\n' ≠ letter) (width : Nat) :
          '\n' ∉ '\\' :: letter :: hexPadded width c.toNat := by
        rw [List.mem_cons, List.mem_cons, not_or, not_or]
        exact ⟨by decide, hl, break_not_mem_hexPadded width _⟩
      split
      · exact fun hm => hbreak (List.mem_singleton.mp hm).symm
      split
      · exact hhex 'x' (by decide) 2
      split
      · exact hhex 'u' (by decide) 4
      · exact hhex 'U' (by decide) 8
  unfold quoted
  dsimp only
  rw [List.mem_cons, List.mem_append, List.mem_singleton, not_or, not_or]
  refine ⟨hmark, fun hm => ?_, hmark⟩
  obtain ⟨c, -, hc⟩ := List.mem_flatMap.mp hm
  exact hchar c hc

end Text

/-! ### Causes -/

namespace Utf8

theorem break_not_mem_hexByte (b : UInt8) : '\n' ∉ hexByte b := by
  have hdigit : ∀ d < 16, '\n' ≠ Nat.digitChar d := by decide
  have hlimit := b.toNat_lt
  unfold hexByte
  rw [List.mem_cons, List.mem_singleton, not_or]
  exact ⟨hdigit _ (by omega), hdigit _ (by omega)⟩

theorem message_eq (e : Error) : ∃ subject after,
    e.message = "'utf-8' codec can't decode byte".toList ++ subject ++ " in position ".toList ++
      Text.decimal e.position ++ after ∧
    (after.head? = some ':' ∨ after.head? = some '-') ∧ '\n' ∉ subject ∧ '\n' ∉ after := by
  have hreason : '\n' ∉ ": ".toList ++ e.reason.message := by
    cases e.reason with
    | start => decide
    | continuation => decide
    | ending => decide
  unfold Error.message
  split
  · refine ⟨" 0x".toList ++ hexByte e.byte, ": ".toList ++ e.reason.message, ?_, Or.inl rfl, ?_,
      hreason⟩
    · simp only [List.append_assoc]
      rfl
    · rw [List.mem_append, not_or]
      exact ⟨by decide, break_not_mem_hexByte e.byte⟩
  · refine ⟨['s'], '-' :: Text.decimal (e.position + e.length - 1) ++
      (": ".toList ++ e.reason.message), ?_, Or.inr rfl, by decide, ?_⟩
    · simp only [List.append_assoc]
      rfl
    · rw [List.cons_append, List.mem_cons, List.mem_append, not_or, not_or]
      exact ⟨by decide, Text.break_not_mem_decimal _, hreason⟩

end Utf8

namespace Failure

theorem line_eq {failure : Failure} {message : Text} (h : failure.message = some message)
    (hm : message ≠ []) : failure.line = failure.kind.toList ++ ": ".toList ++ message := by
  unfold line
  rw [h]
  split
  · next heq => cases heq
  · next heq => exact absurd (Option.some.inj heq) hm
  · next heq => rw [Option.some.inj heq]

/-- The failure of a source that is not there. -/
def missing (path : Text) : Failure :=
  .system (Refusal.missing.about [path])

/-- The failure for a number of so many digits in a heading. -/
def longNumber (count : Nat) : Failure :=
  .decorating (.text (.tooManyDigits count))

theorem break_not_mem_missing (path : Text) : '\n' ∉ (missing path).line := by
  have hline : (missing path).line = "FileNotFoundError".toList ++ ": ".toList ++
      ("[Errno ".toList ++ SystemError.writeNumber 2 ++ "] ".toList ++
        "No such file or directory".toList ++ (": ".toList ++ Text.quoted path)) :=
    line_eq rfl (by simp)
  rw [hline]
  simp only [List.mem_append, not_or]
  exact ⟨by decide, ⟨by decide, by decide⟩, by decide, Text.break_not_mem_quoted path⟩

/-- The line of bytes that are no text shows where they stand. -/
theorem undecodable_line (e : Utf8.Error) : ∃ subject after,
    (undecodable e).line = "UnicodeDecodeError: 'utf-8' codec can't decode byte".toList ++
      subject ++ " in position ".toList ++ Text.decimal e.position ++ after ∧
    (after.head? = some ':' ∨ after.head? = some '-') ∧ '\n' ∉ (undecodable e).line := by
  obtain ⟨subject, after, hmessage, hhead, hsubject, hafter⟩ := Utf8.message_eq e
  have hline : (undecodable e).line =
      "UnicodeDecodeError".toList ++ ": ".toList ++ e.message :=
    line_eq rfl (by rw [hmessage]; simp)
  have hlead : "UnicodeDecodeError".toList ++ ": ".toList ++
      "'utf-8' codec can't decode byte".toList =
        "UnicodeDecodeError: 'utf-8' codec can't decode byte".toList := by decide
  have hwhole : (undecodable e).line =
      "UnicodeDecodeError: 'utf-8' codec can't decode byte".toList ++
        subject ++ " in position ".toList ++ Text.decimal e.position ++ after := by
    rw [hline, hmessage, ← hlead]
    simp only [List.append_assoc]
  refine ⟨subject, after, hwhole, hhead, ?_⟩
  rw [hwhole]
  simp only [List.mem_append, not_or]
  exact ⟨⟨⟨⟨by decide, hsubject⟩, by decide⟩, Text.break_not_mem_decimal _⟩, hafter⟩

theorem break_not_mem_longNumber (count : Nat) : '\n' ∉ (longNumber count).line := by
  have hline : (longNumber count).line = "ValueError".toList ++ ": ".toList ++
      (NumberError.tooManyDigits count).message :=
    line_eq rfl (by unfold NumberError.message; simp)
  rw [hline]
  unfold NumberError.message
  simp only [List.mem_append, not_or]
  exact ⟨by decide, ⟨by decide, Text.break_not_mem_decimal count⟩, by decide⟩

end Failure

/-! ### Runs of the script -/

/-- The page is at its place, nothing else has changed, and success is all that is printed. -/
structure Published (fs : FileSystem) (goal : Place) (page : Text) (ran : FileSystem × Console) :
    Prop where
  files : fs.Becomes goal (some (.file Job.pageMode (Utf8.encode page))) ran.1
  output : Console.text ran.2.output =
    "Changelog HTML written to ".toList ++ Path.ofPlace goal ++ ['\n']
  errors : ran.2.errors = []

/-- Nothing has changed, and the failure is all that is printed: its record first, and its cause in
the last line. -/
structure Refused (fs : FileSystem) (source : Place) (cause : Failure)
    (ran : FileSystem × Console) : Prop where
  files : ran.1 = fs
  output : ran.2.output = []
  errors : Console.text ran.2.errors =
    "Failed to generate changelog HTML from ".toList ++ Path.ofPlace source ++ ['\n'] ++
      ("Traceback (most recent call last):".toList ++ ['\n']) ++ (cause.line ++ ['\n'])
  line : '\n' ∉ cause.line

/-- What a run of the script leaves, by the content of the changelog. -/
inductive Outcome (fs : FileSystem) (source goal : Place) (ran : FileSystem × Console) : Prop
  /-- The changelog is a text that has a page. -/
  | published {mode : Nat} {cs page : Text}
      (content : fs.get? source = some (.file mode (Utf8.encode cs)))
      (renders : render (Source.normalizeLines cs) = .ok page)
      (published : Published fs goal page ran)
  /-- There is no changelog. -/
  | absent (missing : fs.get? source = none)
      (refused : Refused fs source (.missing (Path.ofPlace source)) ran)
  /-- The changelog is no text; the cause tells how many of its bytes are. -/
  | undecodable {mode : Nat} {bytes : List UInt8} {e : Utf8.Error} {subject after : Text}
      (content : fs.get? source = some (.file mode bytes))
      (invalid : ∀ cs, Utf8.encode cs ≠ bytes)
      (longest : e.position < bytes.length ∧ Utf8.LongestText bytes e.position)
      (shows : (Failure.undecodable e).line =
        "UnicodeDecodeError: 'utf-8' codec can't decode byte".toList ++ subject ++
          " in position ".toList ++ Text.decimal e.position ++ after)
      (ends : after.head? = some ':' ∨ after.head? = some '-')
      (refused : Refused fs source (.undecodable e) ran)
  /-- The changelog is a text with a heading whose number has too many digits. -/
  | overlong {mode : Nat} {cs : Text} {count : Nat}
      (content : fs.get? source = some (.file mode (Utf8.encode cs)))
      (long : Text.digitLimit < count)
      (fails : render (Source.normalizeLines cs) = .error (.text (.tooManyDigits count)))
      (refused : Refused fs source (.longNumber count) ran)

namespace Site

variable {around : Surroundings} {fs : FileSystem} {box : Place} {docs : Text}
variable (h : Site around fs box docs)
include h

theorem sourcePath_eq : sourcePath (Path.ofPlace (box ++ [docs])) =
    Path.ofPlace (box ++ [changelogName]) :=
  Path.full_beside h.reaches.plain plain_changelogName

theorem pagePath_eq : pagePath (Path.ofPlace (box ++ [docs])) =
    Path.ofPlace (box ++ [docs, pageName]) :=
  Path.inside_ofPlace h.plainDocs box pageName

/-- What is read is the content of the changelog. -/
theorem readSource_eq : readSource fs (Path.ofPlace (box ++ [changelogName])) =
    match fs.get? (box ++ [changelogName]) with
    | some (.file _ bytes) => decodeSource bytes
    | _ => .error (.missing (Path.ofPlace (box ++ [changelogName]))) := by
  have hbox : fs.Reaches box := h.reaches.front
  have hplain : ∀ name ∈ box ++ [changelogName], Path.Plain name := by
    intro name hname
    rcases List.mem_append.mp hname with hname | hname
    · exact hbox.plain name hname
    · rw [List.mem_singleton.mp hname]
      exact plain_changelogName
  have hnul : (Path.ofPlace (box ++ [changelogName])).contains '\x00' = false := by
    simpa using Path.nul_not_mem_ofPlace hplain
  unfold readSource
  rw [hnul, hbox.read plain_changelogName (by decide) h.changelogFits]
  cases hget : fs.get? (box ++ [changelogName]) with
  | none => rfl
  | some node =>
    cases node with
    | directory =>
      have hfile := h.changelog
      rw [isDirectory, hget] at hfile
      cases hfile
    | file mode bytes => rfl

/-- A failure before there is a page is printed, and nothing changes. -/
theorem refused {cause : Failure} (hline : '\n' ∉ cause.line)
    (hp : pageOf around fs (Path.ofPlace (box ++ [changelogName])) = .error cause)
    (arguments : List Text) :
    Refused fs (box ++ [changelogName]) cause
      (script around fs (Path.ofPlace (box ++ [docs])) arguments) := by
  unfold script
  rw [h.sourcePath_eq, h.pagePath_eq]
  unfold report publish
  rw [hp]
  refine ⟨rfl, rfl, ?_, hline⟩
  change Console.text (Console.recordLines (Record.failed _ cause)) = _
  rw [Console.recordLines_failed]

theorem published {page : Text}
    (hp : pageOf around fs (Path.ofPlace (box ++ [changelogName])) = .ok page)
    (arguments : List Text) :
    Published fs (box ++ [docs, pageName]) page
      (script around fs (Path.ofPlace (box ++ [docs])) arguments) := by
  obtain ⟨now, hdeliver, hnow⟩ := h.deliver page
  unfold script
  rw [h.sourcePath_eq, h.pagePath_eq]
  unfold report publish
  rw [hp]
  dsimp only
  rw [hdeliver]
  refine ⟨hnow, ?_, rfl⟩
  change Console.text (Console.recordLines (Record.written _)) = _
  rw [Console.recordLines_written]

/-- A changelog that is a text is rendered. -/
theorem pageOf_text {mode : Nat} {cs : Text}
    (hget : fs.get? (box ++ [changelogName]) = some (.file mode (Utf8.encode cs))) :
    pageOf around fs (Path.ofPlace (box ++ [changelogName])) =
      (render (Source.normalizeLines cs)).mapError Failure.decorating := by
  have hread : readSource fs (Path.ofPlace (box ++ [changelogName])) =
      .ok (Source.normalizeLines cs) := by
    rw [h.readSource_eq, hget]
    dsimp only
    rw [decodeSource, Utf8.decode_eq_ok.mpr rfl]
  unfold pageOf
  rw [hread]
  change renderFor around (Source.normalizeLines cs) = _
  unfold renderFor
  rw [h.quiet]

theorem refused_overlong {mode count : Nat} {cs : Text}
    (hget : fs.get? (box ++ [changelogName]) = some (.file mode (Utf8.encode cs)))
    (hrender : render (Source.normalizeLines cs) = .error (.text (.tooManyDigits count)))
    (arguments : List Text) :
    Refused fs (box ++ [changelogName]) (.longNumber count)
      (script around fs (Path.ofPlace (box ++ [docs])) arguments) := by
  have hpage := h.pageOf_text hget
  rw [hrender] at hpage
  exact h.refused (Failure.break_not_mem_longNumber count) hpage arguments

/-- Every run ends in one of four ways. -/
theorem outcome (arguments : List Text) :
    Outcome fs (box ++ [changelogName]) (box ++ [docs, pageName])
      (script around fs (Path.ofPlace (box ++ [docs])) arguments) := by
  have hread := h.readSource_eq
  cases hget : fs.get? (box ++ [changelogName]) with
  | none =>
    rw [hget] at hread
    refine .absent hget (h.refused (Failure.break_not_mem_missing _) ?_ arguments)
    unfold pageOf
    rw [hread]
    rfl
  | some node =>
    rw [hget] at hread
    cases node with
    | directory =>
      have hfile := h.changelog
      rw [isDirectory, hget] at hfile
      cases hfile
    | file mode bytes =>
      unfold decodeSource at hread
      dsimp only at hread
      cases hdecode : Utf8.decode bytes with
      | error e =>
        rw [hdecode] at hread
        obtain ⟨subject, after, hshows, hends, hline⟩ := Failure.undecodable_line e
        refine .undecodable hget ?_ (Utf8.decode_eq_error hdecode) hshows hends
          (h.refused hline ?_ arguments)
        · intro cs hcs
          rw [Utf8.decode_eq_ok.mpr hcs] at hdecode
          cases hdecode
        · unfold pageOf
          rw [hread]
          rfl
      | ok cs =>
        rw [← Utf8.decode_eq_ok.mp hdecode] at hget
        cases hrender : render (Source.normalizeLines cs) with
        | ok page =>
          have hpage := h.pageOf_text hget
          rw [hrender] at hpage
          exact .published hget hrender (h.published hpage arguments)
        | error err =>
          -- There is no other way for the page of a text to fail.
          obtain ⟨digits, _, _, -, -, hlong, rfl⟩ := render_error hrender
          exact .overlong hget hlong.long hrender (h.refused_overlong hget hrender arguments)

end Site

theorem Published.not_refused {fs : FileSystem} {source goal : Place} {page : Text}
    {cause : Failure} {ran : FileSystem × Console} (h : Published fs goal page ran) :
    ¬Refused fs source cause ran := by
  intro hr
  have houtput := h.output
  rw [hr.output] at houtput
  cases houtput

/-- Surroundings without faults, and with one name for a temporary file. -/
def calm : Surroundings :=
  ⟨fun _ => none, ["k3x9".toList]⟩

/-- A directory `project` with a changelog of the given bytes and a directory `docs`. -/
def project (changelog : List UInt8) : FileSystem :=
  ⟨[], [(["project".toList], .directory), (["project".toList, "docs".toList], .directory),
    (["project".toList, changelogName], .file 0o644 changelog)]⟩

theorem reaches_docs (changelog : List UInt8) :
    (project changelog).Reaches ["project".toList, "docs".toList] := by
  have hproject : (project changelog).Reaches ([] ++ ["project".toList]) :=
    (reaches_nil _).below ⟨by decide, by decide, by decide, by decide, by decide⟩ (by decide) rfl
  exact hproject.below ⟨by decide, by decide, by decide, by decide, by decide⟩ (by decide) rfl

theorem site_project (changelog : List UInt8) :
    Site calm (project changelog) ["project".toList] "docs".toList where
  quiet _ := rfl
  reaches := reaches_docs changelog
  changelog := rfl
  page := rfl
  changelogFits := by unfold Fits; decide
  pageFits := by unfold Fits; decide
  plain := by decide
  short := by decide
  fits := by unfold Fits; decide
  free := ⟨"k3x9".toList, List.mem_cons_self, rfl⟩

theorem return_not_mem_longReference : '\r' ∉ longReference := by
  unfold longReference
  rw [List.mem_append, List.mem_append, not_or, not_or]
  exact ⟨⟨by decide, fun hm => absurd (List.eq_of_mem_replicate hm) (by decide)⟩, by decide⟩

end Changelog
