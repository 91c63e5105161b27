import FeatureAtlas.Log.Record
import FeatureAtlas.Proofs.Datum.Plain
import FeatureAtlas.Proofs.Except
import FeatureAtlas.Proofs.Json.OneLine
import FeatureAtlas.Proofs.Text.Split

/-!
# A record is a line

The line of a record is the compact text of its event, and the event is plain JSON. So the line has no line
break, whatever the message and the fields have in them, and reading it gives the event back. A log is made of
such lines with line feeds behind them, so in a log each record is one line of its own.
-/

namespace FeatureAtlas

namespace LogRecord

variable {r : LogRecord} {fields : Table Json}

/-- Every double in the fields is one that the format holds, and every moment is one of the calendar. -/
def WellFormed (r : LogRecord) : Prop := ∀ f ∈ r.fields, f.2.WellFormed

/-! ## Shown fields -/

/-- The fields that the line shows, as one datum. -/
def shownDatum (r : LogRecord) : Datum := .map (r.shownFields.map fun f ↦ (.text f.1, f.2))

theorem WellFormed.shownDatum (h : r.WellFormed) : r.shownDatum.WellFormed := by
  refine Datum.wellFormed_map fun e he ↦ ?_
  obtain ⟨f, hf, rfl⟩ := List.mem_map.mp he
  exact h f (List.mem_of_mem_filter hf)

theorem plain?_shownDatum (r : LogRecord) : r.shownDatum.plain? = r.plainFields?.map .obj := by
  rw [shownDatum, Datum.plain?, plainFields?, Option.map_map]
  rfl

/-- There are fields in plain form if there are shown fields. -/
theorem isEmpty_plainFields (h : r.plainFields? = some fields) :
    fields.isEmpty = r.shownFields.isEmpty := by
  obtain ⟨forms, hforms, rfl⟩ := Option.map_eq_some_iff.mp h
  cases hshown : r.shownFields with
  | nil =>
    rw [hshown] at hforms
    cases hforms
    rfl
  | cons f rest =>
    rw [hshown, List.map_cons] at hforms
    obtain ⟨j, js, -, -, rfl⟩ := Datum.plainEntries?_cons_eq_some.mp hforms
    have hkey : f.1 ∈ (Table.ofEntries ((f.1, j) :: js)).map Prod.fst := by
      rw [Table.keys_ofEntries, mem_distinct]
      exact List.mem_cons_self
    obtain ⟨e, he, -⟩ := List.mem_map.mp hkey
    exact List.isEmpty_eq_false_iff_exists_mem.mpr ⟨e, he⟩

/-! ## The event -/

theorem line_eq_ok {text : String} :
    r.line = .ok text ↔ ∃ instant message fields, r.created.instant = .ok instant ∧ r.filled = .ok message ∧
      r.plainFields? = some fields ∧ Json.canonical (.obj (r.entries instant message fields)) = text := by
  simp only [line, event, map_eq_ok, bind_eq_ok, mapError_eq_ok]
  constructor
  · rintro ⟨e, ⟨instant, hinstant, message, hmessage, he⟩, rfl⟩
    split at he
    · cases he
    · next fields hfields =>
      cases he
      exact ⟨instant, message, fields, hinstant, hmessage, hfields, rfl⟩
  · rintro ⟨instant, message, fields, hinstant, hmessage, hfields, rfl⟩
    refine ⟨_, ⟨instant, hinstant, message, hmessage, ?_⟩, rfl⟩
    rw [hfields]
    rfl

theorem keys_entries_sublist (r : LogRecord) (instant : Instant) (message : String) (fields : Table Json) :
    ((r.entries instant message fields).map Prod.fst).Sublist
      (["timestamp", "level", "logger", "message"] ++ ["fields"] ++ ["exception"] ++ ["stack"]) := by
  rw [entries, List.map_append, List.map_append, List.map_append]
  refine (((List.Sublist.refl _).append ?_).append ?_).append ?_ <;> split <;> simp

theorem nodupKeys_entries (r : LogRecord) (instant : Instant) (message : String) (fields : Table Json) :
    (r.entries instant message fields).NodupKeys :=
  (keys_entries_sublist r instant message fields).nodup (by decide)

theorem lookup_entries_fields (r : LogRecord) (instant : Instant) (message : String) (fields : Table Json) :
    (r.entries instant message fields).lookup "fields" =
      if fields.isEmpty then none else some (.obj fields) := by
  rw [entries]
  cases fields.isEmpty <;> cases r.failure <;> cases r.stack.isBlank <;> rfl

theorem plain_entries (hr : r.WellFormed) (h : r.plainFields? = some fields) (instant : Instant)
    (message : String) : (Json.obj (r.entries instant message fields)).Plain := by
  have hfields : (Json.obj fields).Plain := by
    refine Datum.plain_of_plain? hr.shownDatum ?_
    rw [plain?_shownDatum, h, Option.map_some]
  refine .obj (nodupKeys_entries r instant message fields) ?_
  simp only [entries, List.forall_mem_append]
  refine ⟨⟨⟨?own, ?shown⟩, ?failure⟩, ?stack⟩
  case own => simp [Json.Plain.str]
  case shown => split <;> simp [hfields]
  case failure => split <;> simp [Json.Plain.str]
  case stack => split <;> simp [Json.Plain.str]

/-! ## The line -/

theorem exists_line_iff (hr : r.WellFormed) :
    (∃ line, r.line = .ok line) ↔
      (∃ instant, r.created.instant = .ok instant) ∧ (∃ message, r.filled = .ok message) ∧
        ∀ t, .moment t ∈ r.shownDatum.parts → ∃ u : DateTime, u.InUtc ∧ u.instant = t.instant := by
  rw [← Datum.isSome_plain?_iff hr.shownDatum, plain?_shownDatum, Option.isSome_map,
    Option.isSome_iff_exists]
  simp only [line_eq_ok]
  constructor
  · rintro ⟨_, instant, message, fields, hinstant, hmessage, hfields, -⟩
    exact ⟨⟨instant, hinstant⟩, ⟨message, hmessage⟩, fields, hfields⟩
  · rintro ⟨⟨instant, hinstant⟩, ⟨message, hmessage⟩, fields, hfields⟩
    exact ⟨_, instant, message, fields, hinstant, hmessage, hfields, rfl⟩

theorem not_mem_line {text : String} (h : r.line = .ok text) {c : Char} (hc : c.toNat < 32) :
    c ∉ text.toList := by
  obtain ⟨instant, message, fields, -, -, -, rfl⟩ := line_eq_ok.mp h
  rw [Json.canonical, Json.compact, String.toList_ofList]
  exact (Json.oneLine_compactChars _).not_mem hc

/-- Texts that end with line feeds are split one by one. -/
theorem split_log (texts : List String) :
    Text.split '\n' (String.join (texts.map (· ++ "\n"))) = texts.flatMap (Text.split '\n') ++ [""] := by
  induction texts with
  | nil => rfl
  | cons text texts ih =>
    have hjoin : (String.join ((text :: texts).map (· ++ "\n"))).toList =
        text.toList ++ '\n' :: (String.join (texts.map (· ++ "\n"))).toList := by
      simp
    rw [List.flatMap_cons, List.append_assoc, ← ih, Text.split, hjoin, Text.splitOn_append, List.map_append]
    rfl

/-- A text without line feeds is one line of a log, whatever else is in the log. -/
theorem split_log_of_not_mem {text : String} (h : '\n' ∉ text.toList) (before behind : List String) :
    Text.split '\n' (String.join ((before ++ text :: behind).map (· ++ "\n"))) =
      before.flatMap (Text.split '\n') ++ text :: (behind.flatMap (Text.split '\n') ++ [""]) := by
  have htext : Text.split '\n' text = [text] := by
    rw [Text.split, Text.splitOn_of_not_mem h, List.map_singleton, String.ofList_toList]
  rw [split_log, List.flatMap_append, List.flatMap_cons, htext, List.append_assoc, List.append_assoc]
  rfl

/-- A record that tries to be two: its message goes on with a line of its own, and so does a field. -/
def forging : LogRecord where
  created := .whole 0
  level := "INFO"
  logger := "featuremap\r"
  message := .text "done\r\n\x7b\"level\":\"ERROR\"\x7d"
  fields := [("user", .text "a\"\n\x1b"), ("_hidden", .null),
    ("seen", .list [.float (.finite false 6755399441055744 (-52)), .bool true])]

end LogRecord

end FeatureAtlas
