import FeatureAtlas.FileTree.Basic

/-!
# What is known of a file that is read

Reading goes through the place of a path, the bytes at that place and the text that they write. A file that is
read is there, and its text is that of its bytes.
-/

namespace FeatureAtlas

namespace FileNode

variable {t : FileNode} {cwd : List String} {p : Path}

theorem present_of_read {bytes : List UInt8} (h : t.read cwd p = .ok bytes) :
    t.present cwd p = .ok true := by
  rw [read] at h
  rw [present]
  cases hlocate : t.locate cwd p with
  | error fault =>
    rw [hlocate] at h
    cases h
  | ok place => rfl

theorem readText_of_read {bytes : List UInt8} {s : String} (hread : t.read cwd p = .ok bytes)
    (hdecode : Utf8.decode bytes = .ok s) : t.readText cwd p = .ok (Text.withNewlines s) := by
  simp only [readText, readRawText, hread, hdecode, Except.map]

theorem exists_of_readText {text : String} (h : t.readText cwd p = .ok text) :
    ∃ bytes s, t.read cwd p = .ok bytes ∧ Utf8.decode bytes = .ok s ∧ text = Text.withNewlines s := by
  rw [readText, readRawText] at h
  cases hread : t.read cwd p with
  | error e =>
    rw [hread] at h
    cases h
  | ok bytes =>
    cases hdecode : Utf8.decode bytes with
    | error e =>
      simp only [hread, hdecode] at h
      cases h
    | ok s =>
      simp only [hread, hdecode] at h
      cases h
      exact ⟨bytes, s, rfl, hdecode, rfl⟩

theorem present_of_readText {text : String} (h : t.readText cwd p = .ok text) :
    t.present cwd p = .ok true := by
  obtain ⟨bytes, s, hread, -, -⟩ := exists_of_readText h
  exact present_of_read hread

end FileNode

end FeatureAtlas
