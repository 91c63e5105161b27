import Mathlib
import FeatureAtlas.Failure.Report
import FeatureAtlas.Proofs.FileTree.Reading
import FeatureAtlas.Proofs.Json.Reading

/-!
# Opening a project

Opening a project reads its compiler options. It is refused with an error of its own for each objection
to the file of the options, and only then. The exceptions are the faults that are reported as they are:
the file has too long a name to be looked for, its bytes are no text, or an integer in it has too many
digits. So a project either opens or is refused exactly if none of these occurs.
-/

namespace FeatureAtlas

/-! ## What a text writes -/

namespace Json

/-- A text writes a value: it is a plain document of that value. -/
def Writes (s : String) (v : Json) : Prop := ∃ d : Document, d.plain = d ∧ d.source = s ∧ d.value = v

theorem read_eq_ok_iff {s : String} {v : Json} : read s = .ok v ↔ Writes s v := by
  constructor
  · intro h
    obtain ⟨d, hsource, hvalue, hplain⟩ := exists_document h
    exact ⟨d, hplain, hsource, hvalue⟩
  · rintro ⟨d, hplain, rfl, rfl⟩
    rw [← read_plain d, hplain]

theorem Writes.unique {s : String} {v w : Json} (hv : Writes s v) (hw : Writes s w) : v = w :=
  Except.ok.inj ((read_eq_ok_iff.mpr hv).symm.trans (read_eq_ok_iff.mpr hw))

/-- An integer that is too long is a run of that many digits in the text. -/
theorem exists_digits_of_longIntegerFrom {limit position digits : Nat} {inString : Bool} {skip n : Nat}
    {cs : List Char} (h : longIntegerFrom limit inString skip n cs = some (position, digits)) :
    limit < digits ∧ ∃ ds, ds <:+: cs ∧ ds.length = digits ∧ ∀ c ∈ ds, c.isDigit = true := by
  -- Each step looks at the first character and goes on behind it, so a run found later is one here.
  fun_induction longIntegerFrom limit inString skip n cs with
  | case1 => cases h
  | case2 inString skip n c cs ih | case3 n c cs ih | case4 n c cs hnumber ih =>
    obtain ⟨hlimit, ds, hds, hlength, hdigit⟩ := ih h
    exact ⟨hlimit, ds, hds.trans (List.suffix_cons _ _).isInfix, hlength, hdigit⟩
  | case5 n c cs behind found z hlong hnumber =>
    obtain ⟨-, rfl⟩ : n = position ∧ found = digits := by simpa using h
    have hlimit := of_decide_eq_true hlong
    obtain ⟨happend, -, hdigit⟩ := wholeDigits_spec (s := (signOf (c :: cs)).2)
      (List.ne_nil_of_length_pos (Nat.zero_lt_of_lt hlimit))
    refine ⟨hlimit, _, ?_, rfl, hdigit⟩
    exact (show _ <+: _ from ⟨_, happend.symm⟩).isInfix.trans
      (show _ <:+ _ from ⟨_, (append_signOf (c :: cs)).symm⟩).isInfix
  | case6 n c cs value behind hnumber found hnot ih =>
    obtain ⟨hlimit, ds, hds, hlength, hdigit⟩ := ih h
    exact ⟨hlimit, ds, hds.trans (List.suffix_cons _ _).isInfix, hlength, hdigit⟩

theorem exists_digits_of_longInteger? {limit digits : Nat} {s : String}
    (h : longInteger? limit s = some digits) :
    limit < digits ∧ ∃ ds, ds <:+: s.toList ∧ ds.length = digits ∧ ∀ c ∈ ds, c.isDigit = true := by
  rw [longInteger?] at h
  split at h
  · cases h
  · next hfrom =>
    split at h
    · cases h
      exact exists_digits_of_longIntegerFrom hfrom
    · split at h
      · cases h
        exact exists_digits_of_longIntegerFrom hfrom
      · cases h

end Json

/-! ## The options in a text -/

namespace CompilerOptions

/-- What is wrong with a text that has no options of a project. -/
inductive Flawed (s : String) : Prop where
  | notJson (h : ∀ v, ¬ Json.Writes s v)
  | rootNotObject (v : Json) (hwrites : Json.Writes s v) (h : ∀ fields, v ≠ .obj fields)
  | optionsNotObject (fields : Table Json) (v : Json) (hwrites : Json.Writes s (.obj fields))
      (hfield : fields.lookup "compilerOptions" = some v) (h : ∀ options, v ≠ .obj options)

variable {path : Path} {text : String}

theorem ofText_of_longInteger {digits : Nat}
    (h : Json.longInteger? Text.integerDigitLimit (Json.withoutComments text) = some digits) :
    ofText path text = .error (.longInteger digits) := by
  simp only [ofText, h]

/-- Options are missing from a text without long integers exactly if it is flawed, and this is an error of
the project. -/
theorem ofText_cases
    (h : Json.longInteger? Text.integerDigitLimit (Json.withoutComments text) = none) :
    (∃ options, ofText path text = .ok options) ∧ ¬ Flawed (Json.withoutComments text) ∨
      (∃ e, ofText path text = .error e ∧ (Reportable.failure e).kind = .projectLoad) ∧
        Flawed (Json.withoutComments text) := by
  simp only [ofText, h]
  cases hread : Json.read (Json.withoutComments text) with
  | error e =>
    refine .inr ⟨⟨_, rfl, rfl⟩, .notJson fun v hv ↦ ?_⟩
    rw [Json.read_eq_ok_iff.mpr hv] at hread
    cases hread
  | ok v =>
    have hwrites := Json.read_eq_ok_iff.mp hread
    cases v with
    | obj fields =>
      dsimp only
      cases hfield : fields.lookup "compilerOptions" with
      | none =>
        refine .inl ⟨⟨_, rfl⟩, ?_⟩
        rintro (h | ⟨v, hv, h⟩ | ⟨fields', v, hv, hfield', h⟩)
        · exact h _ hwrites
        · exact h _ (hv.unique hwrites)
        · cases hv.unique hwrites
          rw [hfield] at hfield'
          cases hfield'
      | some v =>
        cases v with
        | obj options =>
          refine .inl ⟨⟨_, rfl⟩, ?_⟩
          rintro (h | ⟨v, hv, h⟩ | ⟨fields', v, hv, hfield', h⟩)
          · exact h _ hwrites
          · exact h _ (hv.unique hwrites)
          · cases hv.unique hwrites
            rw [hfield] at hfield'
            exact h _ (Option.some.inj hfield').symm
        | _ => exact .inr ⟨⟨_, rfl, rfl⟩, .optionsNotObject fields _ hwrites hfield nofun⟩
    | _ => exact .inr ⟨⟨_, rfl, rfl⟩, .rootNotObject _ hwrites nofun⟩

end CompilerOptions

/-! ## Projects -/

theorem FileNode.kind_of_present {t : FileNode} {cwd : List String} {p : Path} {e : FileError}
    (h : t.present cwd p = .error e) : (Reportable.failure e).kind = .other "OSError" := by
  rw [FileNode.present] at h
  split at h
  · cases h
  · cases h
    rfl
  · cases h

namespace SourceProject

/-- The project in a directory opens. -/
def Opens (t : FileNode) (root : List String) (tsconfig : Option Path) : Prop :=
  ∃ p, ofDirectory t root tsconfig = .ok p

/-- The project in a directory is refused, with an error of projects. -/
def Refused (t : FileNode) (root : List String) (tsconfig : Option Path) : Prop :=
  ∃ e, ofDirectory t root tsconfig = .error e ∧ (Reportable.failure e).kind = .projectLoad

/-- What there is to object to the file with the options of a project. -/
inductive Objection (t : FileNode) (root : List String) (tsconfig : Option Path) : Prop where
  /-- It is given, and missing. -/
  | missing (hgiven : tsconfig.isSome = true)
      (h : t.present root (CompilerOptions.fileOf root tsconfig) = .ok false)
  /-- It is there and cannot be read. -/
  | unreadable (e : FileError) (hthere : t.present root (CompilerOptions.fileOf root tsconfig) = .ok true)
      (h : t.read root (CompilerOptions.fileOf root tsconfig) = .error e)
  /-- Its bytes are no text. -/
  | notText (bytes : List UInt8) (e : Utf8Error)
      (hread : t.read root (CompilerOptions.fileOf root tsconfig) = .ok bytes)
      (h : Utf8.decode bytes = .error e)
  /-- Its text without comments has no options. -/
  | flawed (text : String) (hread : t.readText root (CompilerOptions.fileOf root tsconfig) = .ok text)
      (h : CompilerOptions.Flawed (Json.withoutComments text))

/-- The file with the options of a project has none of the faults that are reported as they are. -/
structure Plain (t : FileNode) (root : List String) (tsconfig : Option Path) : Prop where
  /-- No name on its path is too long. -/
  sought : ∀ e, t.present root (CompilerOptions.fileOf root tsconfig) ≠ .error e
  /-- What can be read of it is text. -/
  isText : ∀ bytes, t.read root (CompilerOptions.fileOf root tsconfig) = .ok bytes →
    ∀ e, Utf8.decode bytes ≠ .error e
  /-- None of its integers is too long to be read. -/
  short : ∀ text, t.readText root (CompilerOptions.fileOf root tsconfig) = .ok text →
    Json.longInteger? Text.integerDigitLimit (Json.withoutComments text) = none

variable {t : FileNode} {root : List String} {tsconfig : Option Path}

theorem opens_iff : Opens t root tsconfig ↔ ∃ options, CompilerOptions.load t root tsconfig = .ok options := by
  rw [Opens, ofDirectory]
  cases CompilerOptions.load t root tsconfig with
  | error e => exact ⟨nofun, nofun⟩
  | ok options => exact ⟨fun _ ↦ ⟨_, rfl⟩, fun _ ↦ ⟨_, rfl⟩⟩

theorem refused_iff : Refused t root tsconfig ↔
    ∃ e, CompilerOptions.load t root tsconfig = .error e ∧ (Reportable.failure e).kind = .projectLoad := by
  rw [Refused, ofDirectory]
  cases CompilerOptions.load t root tsconfig with
  | error e =>
    constructor <;> rintro ⟨e', h, hkind⟩ <;> cases h <;> exact ⟨e, rfl, hkind⟩
  | ok options => exact ⟨nofun, nofun⟩

theorem load_of_readText {text : String}
    (h : t.readText root (CompilerOptions.fileOf root tsconfig) = .ok text) :
    CompilerOptions.load t root tsconfig = CompilerOptions.ofText (CompilerOptions.fileOf root tsconfig) text := by
  have hthere := FileNode.present_of_readText h
  simp only [CompilerOptions.load, hthere, h]

theorem load_of_decode_error {bytes : List UInt8} {e : Utf8Error}
    (hread : t.read root (CompilerOptions.fileOf root tsconfig) = .ok bytes)
    (hdecode : Utf8.decode bytes = .error e) :
    CompilerOptions.load t root tsconfig = .error (.notText e) := by
  simp only [CompilerOptions.load, FileNode.present_of_read hread, FileNode.readText,
    FileNode.readRawText, hread, hdecode, Except.map]

theorem objection_iff_flawed {text : String}
    (h : t.readText root (CompilerOptions.fileOf root tsconfig) = .ok text) :
    Objection t root tsconfig ↔ CompilerOptions.Flawed (Json.withoutComments text) := by
  obtain ⟨bytes, s, hread, hdecode, rfl⟩ := FileNode.exists_of_readText h
  refine ⟨?_, .flawed _ h⟩
  rintro (⟨-, habsent⟩ | ⟨e, -, hrefused⟩ | ⟨bytes', e, hread', hnot⟩ | ⟨text, htext, hflawed⟩)
  · rw [FileNode.present_of_readText h] at habsent
    cases habsent
  · rw [hread] at hrefused
    cases hrefused
  · rw [hread] at hread'
    cases hread'
    rw [hdecode] at hnot
    cases hnot
  · rw [h] at htext
    cases htext
    exact hflawed

/-- A project with a plain file of options opens if there is nothing to object to it, and else is
refused. -/
theorem Plain.opens_or_refused (h : Plain t root tsconfig) :
    Opens t root tsconfig ∧ ¬ Objection t root tsconfig ∨
      Refused t root tsconfig ∧ Objection t root tsconfig := by
  rw [opens_iff, refused_iff]
  cases hthere : t.present root (CompilerOptions.fileOf root tsconfig) with
  | error e => exact absurd hthere (h.sought e)
  | ok there =>
    cases there with
    | false =>
      simp only [CompilerOptions.load, hthere]
      cases tsconfig with
      | none =>
        refine .inl ⟨⟨_, rfl⟩, ?_⟩
        rintro (⟨hgiven, -⟩ | ⟨e, hyes, -⟩ | ⟨bytes, e, hread, -⟩ | ⟨text, hread, -⟩)
        · cases hgiven
        · rw [hthere] at hyes
          cases hyes
        · rw [FileNode.present_of_read hread] at hthere
          cases hthere
        · rw [FileNode.present_of_readText hread] at hthere
          cases hthere
      | some file => exact .inr ⟨⟨_, rfl, rfl⟩, .missing rfl hthere⟩
    | true =>
      cases hread : t.read root (CompilerOptions.fileOf root tsconfig) with
      | error e =>
        have hload : CompilerOptions.load t root tsconfig
            = .error (.unreadable (CompilerOptions.fileOf root tsconfig) e) := by
          simp only [CompilerOptions.load, hthere, FileNode.readText, FileNode.readRawText, hread,
            Except.map]
        exact .inr ⟨⟨_, hload, rfl⟩, .unreadable e hthere hread⟩
      | ok bytes =>
        cases hdecode : Utf8.decode bytes with
        | error e => exact absurd hdecode (h.isText bytes hread e)
        | ok s =>
          have htext := FileNode.readText_of_read hread hdecode
          rw [load_of_readText htext, objection_iff_flawed htext]
          exact CompilerOptions.ofText_cases (h.short _ htext)

/-- A file of options is plain if it can be looked for, is text, and has no run of more digits than an
integer may have. -/
theorem plain_of_runs (hsought : ∀ e, t.present root (CompilerOptions.fileOf root tsconfig) ≠ .error e)
    (hruns : ∀ bytes, t.read root (CompilerOptions.fileOf root tsconfig) = .ok bytes →
      ∃ s, Utf8.decode bytes = .ok s ∧
        ∀ ds, ds <:+: (Json.withoutComments (Text.withNewlines s)).toList →
          (∀ c ∈ ds, c.isDigit = true) → ds.length ≤ Text.integerDigitLimit) :
    Plain t root tsconfig := by
  refine ⟨hsought, fun bytes hread e hnot ↦ ?_, fun text htext ↦ ?_⟩
  · obtain ⟨s, hdecode, -⟩ := hruns bytes hread
    rw [hdecode] at hnot
    cases hnot
  · obtain ⟨bytes, s, hread, hdecode, rfl⟩ := FileNode.exists_of_readText htext
    obtain ⟨s', hdecode', hshort⟩ := hruns bytes hread
    rw [hdecode] at hdecode'
    cases hdecode'
    cases hlong : Json.longInteger? Text.integerDigitLimit _ with
    | none => rfl
    | some digits =>
      obtain ⟨hlimit, ds, hds, rfl, hdigit⟩ := Json.exists_digits_of_longInteger? hlong
      exact absurd (hshort ds hds hdigit) (Nat.not_le_of_lt hlimit)

/-- The faults that are reported as they are neither open a project nor refuse it. -/
theorem plain_of_opens_or_refused (h : Opens t root tsconfig ∨ Refused t root tsconfig) :
    Plain t root tsconfig := by
  rw [opens_iff, refused_iff] at h
  refine ⟨fun e hsought ↦ ?_, fun bytes hread e hdecode ↦ ?_, fun text htext ↦ ?_⟩
  · have hload : CompilerOptions.load t root tsconfig = .error (.notSought e) := by
      simp only [CompilerOptions.load, hsought]
    rw [hload] at h
    obtain ⟨options, hok⟩ | ⟨e', herror, hkind⟩ := h
    · cases hok
    · cases herror
      have hother : (Reportable.failure e).kind = .projectLoad := hkind
      rw [FileNode.kind_of_present hsought] at hother
      cases hother
  · rw [load_of_decode_error hread hdecode] at h
    obtain ⟨options, hok⟩ | ⟨e', herror, hkind⟩ := h
    · cases hok
    · cases herror
      cases hkind
  · cases hlong : Json.longInteger? Text.integerDigitLimit (Json.withoutComments text) with
    | none => rfl
    | some digits =>
      rw [load_of_readText htext, CompilerOptions.ofText_of_longInteger hlong] at h
      obtain ⟨options, hok⟩ | ⟨e', herror, hkind⟩ := h
      · cases hok
      · cases herror
        cases hkind

/-- **Opening a project is refused for its objections alone, unless a fault is reported as it is.** A
project opens or is refused, and is refused exactly if there is something to object to its file of
options, if and only if that file is plain. -/
theorem opens_or_refused_iff (t : FileNode) (root : List String) (tsconfig : Option Path) :
    (Opens t root tsconfig ∨ Refused t root tsconfig) ∧
        (Refused t root tsconfig ↔ Objection t root tsconfig) ↔
      Plain t root tsconfig := by
  refine ⟨fun h ↦ plain_of_opens_or_refused h.1, fun h ↦ ?_⟩
  obtain ⟨hopens, hnone⟩ | ⟨hrefused, hsome⟩ := h.opens_or_refused
  · refine ⟨.inl hopens, fun hrefused ↦ ?_, fun hsome ↦ absurd hsome hnone⟩
    obtain ⟨p, hok⟩ := hopens
    obtain ⟨e, herror, -⟩ := hrefused
    rw [hok] at herror
    cases herror
  · exact ⟨.inr hrefused, fun _ ↦ hsome, fun _ ↦ hrefused⟩

/-- A project whose only file has the options. -/
def tsconfigProject (bytes : List UInt8) : FileNode := .directory [("tsconfig.json", .file bytes)]

/-- A brace that is not closed is objected to, and the project is refused for it. -/
theorem opens_or_refused_unclosed :
    Plain (tsconfigProject [0x7b]) [] none ∧ Refused (tsconfigProject [0x7b]) [] none ∧
      Objection (tsconfigProject [0x7b]) [] none := by
  have hkind : (match ofDirectory (tsconfigProject [0x7b]) [] none with
      | .error e => (Reportable.failure e).kind == .projectLoad
      | .ok _ => false) = true := by decide +kernel
  have hrefused : Refused (tsconfigProject [0x7b]) [] none := by
    rw [Refused]
    split at hkind
    · next e herror => exact ⟨e, herror, eq_of_beq hkind⟩
    · cases hkind
  have hplain := plain_of_opens_or_refused (.inr hrefused)
  have h := (opens_or_refused_iff (tsconfigProject [0x7b]) [] none).mpr hplain
  exact ⟨hplain, hrefused, h.2.mp hrefused⟩

/-- **A byte that is no text escapes.** The file of the options is there and is objected to, but the
project is neither opened nor refused: the fault of the byte is reported as it is. -/
theorem undecodable_tsconfig_escapes :
    Objection (tsconfigProject [0xff]) [] none ∧
      (∃ e, ofDirectory (tsconfigProject [0xff]) [] none = .error e ∧
        Reportable.failure e = ⟨.other "UnicodeDecodeError",
          "'utf-8' codec can't decode byte 0xff in position 0: invalid start byte"⟩) ∧
      ¬ (Opens (tsconfigProject [0xff]) [] none ∨ Refused (tsconfigProject [0xff]) [] none) := by
  have hread : (tsconfigProject [0xff]).read [] (CompilerOptions.fileOf [] none) = .ok [0xff] := by cbv
  have hdecode : Utf8.decode [0xff] = .error ⟨.invalidStart, 0, [0xff]⟩ := by rfl
  have hopen : ofDirectory (tsconfigProject [0xff]) [] none
      = .error (.notText ⟨.invalidStart, 0, [0xff]⟩) := by
    rw [ofDirectory, load_of_decode_error hread hdecode]
    rfl
  refine ⟨.notText _ _ hread hdecode, ⟨_, hopen, by decide +kernel⟩, fun h ↦ ?_⟩
  exact (plain_of_opens_or_refused h).isText _ hread _ hdecode

end SourceProject

end FeatureAtlas
